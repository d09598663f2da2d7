import DatasetCatalog.Arff.Basic

/-! # Descriptions

  What the catalog tells about one data set: its description and where its artifact is, how to cite
  it, and the attributes that are declared for it.
-/

namespace DatasetCatalog.Catalog

/-- An attribute that is declared for a data set. -/
structure DeclaredAttribute where
  /-- The position that is declared for it. -/
  index : Int
  /-- Its name. -/
  name : String
  /-- Its kind. -/
  kind : Arff.Kind
  /-- Its levels. -/
  levels : List String := []
  /-- It is to be predicted. -/
  isTarget : Bool := false
  /-- It is to be left out. -/
  isIgnored : Bool := false
  /-- It identifies rows. -/
  isRowId : Bool := false
  /-- How many of its values are missing, when that is known. -/
  missing : Option Int := none
  deriving DecidableEq

/-- How a data set is cited and where it comes from. -/
structure Citation where
  /-- Who made it. -/
  creators : List String := []
  /-- Who contributed. -/
  contributors : List String := []
  /-- When it was collected. -/
  collectionDate : Option String := none
  /-- The text to cite. -/
  text : Option String := none
  /-- Where the data come from. -/
  originalUrl : Option String := none
  /-- The paper about it. -/
  paperUrl : Option String := none
  /-- The licence. -/
  licence : Option String := none
  deriving DecidableEq

/-- The description of a data set. -/
structure Description where
  /-- The identifier of the data set. -/
  id : Int
  /-- Its name. -/
  name : String
  /-- Its version. -/
  version : Int
  /-- The free text about it. -/
  text : String
  /-- How it is cited. -/
  citation : Citation
  /-- The format of the artifact. -/
  format : String
  /-- The address of the artifact. -/
  url : String
  /-- The MD5 digest of the artifact, when it is known. -/
  checksum : Option String := none
  /-- Its state of life. -/
  status : Option String := none
  /-- The attribute that is predicted by default. -/
  defaultTarget : Option String := none
  /-- Its tags. -/
  tags : List String := []
  /-- The declared attributes by their positions. -/
  attributes : List DeclaredAttribute := []
  deriving DecidableEq

/-- The names of the attributes that are to be predicted. -/
def Description.targets (d : Description) : List String :=
  (d.attributes.filter (·.isTarget)).map (·.name)

end DatasetCatalog.Catalog
