import DatasetCatalog.Load
import DatasetCatalog.Proofs.Coercion.Table
import DatasetCatalog.Proofs.Table.Basic

/-! # What loading comes to

  The outcome that the bytes of an artifact must have: they are read under the rules that are asked
  for, the columns are coerced in the mode of the parser with the types that are forced on them, and
  the table is put into the container. Loading goes about it in steps of its own, which come to the
  same.
-/

namespace DatasetCatalog.Load

variable {libraries : FrameLibraries} {options : LoadOptions libraries.Frame} {data : ByteArray}
  {mode : Coercion.Mode}

/-! ### The outcome -/

/-- What is found, or the error of finding nothing. -/
def orError {α : Type} (e : LoadError) : Option α → Except LoadError α
  | some x => .ok x
  | none => .error e

/-- The modes of the parsers. -/
def parserModes : List (String × Coercion.Mode) := [("arff", .strict), ("auto", .auto)]

/-- What others made of a table, handed out. -/
def made {α : Type} : Except ForeignError α → Except LoadError (Container α)
  | .ok x => .ok (.frame x)
  | .error e => .error (.container (.foreign e))

/-- A table put into a container: itself, a frame of one of the libraries, or what the caller makes
    of it. -/
def handOut (libraries : FrameLibraries) (t : Table) :
    ContainerChoice libraries.Frame → Except LoadError (Container libraries.Frame)
  | .table => .ok (.table t)
  | .made make => made (make t)
  | .named name =>
    if name = "pandas" then made (t.toPandas libraries.pandas)
    else if name = "polars" then made (t.toPolars libraries.polars)
    else .error (.container (.table (.unknownContainer name)))

/-- **The outcome of loading bytes.** -/
def outcome (libraries : FrameLibraries) (options : LoadOptions libraries.Frame)
    (data : ByteArray) : Except LoadError (Container libraries.Frame) := do
  let mode ← orError (.parser options.parser) (List.lookup options.parser parserModes)
  let badRow ← orError (.badRow options.badRow) (Arff.BadRow.ofName? options.badRow)
  let parsed ← (Arff.readBytes { strict := options.strict, badRow } data).mapError LoadError.format
  let forced ← options.forced.mapM fun (column, name) => do
    return (column, ← orError (.scitype name) (Scitype.ofName? name))
  let t ← (Coercion.coerce { mode, forced } parsed).mapError LoadError.coerce
  handOut libraries t options.container

/-! ### Step by step -/

theorem lookup_parserModes (name : String) : List.lookup name parserModes = modeOf? name := by
  unfold parserModes modeOf?
  simp only [List.lookup_cons, List.lookup_nil]
  by_cases harff : name = "arff"
  · rw [if_pos harff, beq_iff_eq.2 harff]
  · rw [if_neg harff, beq_eq_false_iff_ne.2 harff]
    by_cases hauto : name = "auto"
    · rw [if_pos hauto, beq_iff_eq.2 hauto]
    · rw [if_neg hauto, beq_eq_false_iff_ne.2 hauto]

theorem parse_eq : parse options data =
    (orError (.badRow options.badRow) (Arff.BadRow.ofName? options.badRow) >>= fun badRow =>
      (Arff.readBytes { strict := options.strict, badRow } data).mapError LoadError.format) := by
  unfold parse
  cases Arff.BadRow.ofName? options.badRow with
  | none => rfl
  | some badRow =>
    show _ = (Arff.readBytes { strict := options.strict, badRow } data).mapError LoadError.format
    dsimp only
    cases Arff.readBytes { strict := options.strict, badRow } data <;> rfl

theorem forcedTypes_eq (forced : List (String × String)) :
    forcedTypes forced = forced.mapM fun (column, name) => do
      return (column, ← orError (.scitype name) (Scitype.ofName? name)) := by
  induction forced with
  | nil => rfl
  | cons x rest ih =>
    obtain ⟨column, name⟩ := x
    rw [forcedTypes, List.mapM_cons, ih]
    dsimp only
    cases Scitype.ofName? name <;> rfl

theorem type_eq (table : Arff.ParsedTable) : type options mode table =
    (forcedTypes options.forced >>= fun forced =>
      (Coercion.coerce { mode, forced } table).mapError LoadError.coerce) := by
  unfold type
  refine bind_congr fun forced => ?_
  cases Coercion.coerce { mode, forced } table <;> rfl

/-- A coerced table is formed of its columns once more. -/
theorem ofColumns_columns {settings : Coercion.Settings} {table : Arff.ParsedTable} {t : Table}
    (h : Coercion.coerce settings table = .ok t) : Table.ofColumns t.columns = .ok t := by
  obtain ⟨columns, -, ht⟩ := Coercion.exists_columns_of_coerce h
  rwa [(Table.ofColumns_spec ht).1]

theorem contain_eq {t : Table} (h : Table.ofColumns t.columns = .ok t) :
    contain libraries options t = handOut libraries t options.container := by
  unfold contain Container.ofColumns
  rw [h]
  dsimp only
  cases options.container with
  | table => rfl
  | made make =>
    show _ = made (make t)
    dsimp only
    cases make t <;> rfl
  | named name =>
    show _ = if name = "pandas" then _ else _
    unfold FrameLibrary.ofName?
    dsimp only
    by_cases hpandas : name = "pandas"
    · rw [if_pos hpandas, if_pos hpandas]
      show _ = made (t.toPandas libraries.pandas)
      dsimp only [Table.toFrame]
      cases t.toPandas libraries.pandas <;> rfl
    · rw [if_neg hpandas, if_neg hpandas]
      by_cases hpolars : name = "polars"
      · rw [if_pos hpolars, if_pos hpolars]
        dsimp only [Table.toFrame]
        cases t.toPolars libraries.polars <;> rfl
      · rw [if_neg hpolars, if_neg hpolars]

/-- **The steps of loading come to the outcome.** -/
theorem ofBytes_eq_outcome (hmode : modeOf? options.parser = some mode) :
    ofBytes libraries options mode data = outcome libraries options data := by
  unfold ofBytes outcome
  -- the mode and the rule for bad rows are looked up before anything is read
  rw [parse_eq, lookup_parserModes, hmode, bind_assoc]
  show _ = orError _ (Arff.BadRow.ofName? options.badRow) >>= _
  refine bind_congr fun badRow => bind_congr fun parsed => ?_
  rw [type_eq, forcedTypes_eq, bind_assoc]
  refine bind_congr fun forced => ?_
  -- the container is formed of a coerced table
  cases hcoerce : Coercion.coerce { mode, forced } parsed with
  | error e => rfl
  | ok t => exact contain_eq (ofColumns_columns hcoerce)

/-- Without a parser there is nothing but its error. -/
theorem outcome_of_none (hmode : modeOf? options.parser = none) :
    outcome libraries options data = .error (.parser options.parser) := by
  unfold outcome
  rw [lookup_parserModes, hmode]
  rfl

end DatasetCatalog.Load
