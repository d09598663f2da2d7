/-! # Bytes — sequences of bytes

  Bytes are kept as they are; what they mean is decided where they are read. Their equality is
  fixed here, so that every equality that is derived from it is the same one.
-/

namespace DatasetCatalog

/-- Sequences of bytes are equal when they have the same bytes in the same order. -/
instance (priority := 2000) instDecidableEqBytes : DecidableEq ByteArray :=
  ByteArray.instDecidableEq

end DatasetCatalog
