import DatasetCatalog.Coercion.Profile

/-! # Detection policies

  A policy chooses a scientific type from a profile. The standard policy counts distinct values:
  few whole numbers are ordered levels, many are counts, other numbers are continuous; nominal
  columns keep their levels; few repeated texts are levels, all other texts are texts.
-/

namespace DatasetCatalog.Coercion

/-- A choice of a type for every profile. -/
abbrev Policy := Profile → Scitype

/-- Below this number of distinct values a column is finite, unless another limit is set. -/
def defaultMaxLevels : Int := 10

/-- The policy that counts distinct values and calls less than `maxLevels` of them few. -/
def countPolicy (maxLevels : Int) : Policy := fun p =>
  let few := decide ((p.distinct : Int) < maxLevels)
  if p.allNumeric then
    if !p.allIntegral then .continuous else if few then .orderedFactor else .count
  else if p.declared = .nominal then .finite p.ordered
  else if few && p.hasRepeats then .multiclass
  else .textual

/-- A limit below one is refused. -/
structure LimitError where
  /-- The refused limit. -/
  limit : Int
  deriving DecidableEq

/-- The wording of an error. -/
def LimitError.message (e : LimitError) : String :=
  "max_levels must be >= 1, got " ++ integerText e.limit

/-- The counting policy of a limit. -/
def Policy.ofLimit (limit : Int) : Except LimitError Policy :=
  if limit < 1 then .error ⟨limit⟩ else .ok (countPolicy limit)

end DatasetCatalog.Coercion
