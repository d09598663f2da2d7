import DatasetCatalog.Arff.Error

/-! # Tokens

  Quoted values, comma separated cells and the items of a sparse row. A value between quotes may
  hold commas and escapes; an unquoted one reaches to the next comma and is stripped. Writing a
  value puts it between quotes when it would not be read back as it is.
-/

namespace DatasetCatalog.Arff

open Text

/-- The two kinds of quotes. -/
def isQuote (c : Char) : Bool := c == '\'' || c == '"'

/-! ### Reading a quoted value -/

/-- What a backslash and a character stand for; an unknown escape stands for itself. -/
def unescape (c : Char) : List Char :=
  if c = 'n' then ['\n']
  else if c = 't' then ['\t']
  else if c = 'r' then ['\r']
  else if c = '\\' ∨ c = '\'' ∨ c = '"' ∨ c = '%' then [c]
  else ['\\', c]

/-- Reads up to the closing quote: the content, and what follows the quote. -/
def quotedBody (quote : Char) : List Char → Option (List Char × List Char)
  | [] => none
  | '\\' :: c :: rest => (quotedBody quote rest).map fun (body, after) => (unescape c ++ body, after)
  | c :: rest =>
    if c = quote then some ([], rest)
    else (quotedBody quote rest).map fun (body, after) => (c :: body, after)

theorem length_of_quotedBody {quote : Char} {s body after : List Char}
    (h : quotedBody quote s = some (body, after)) : after.length < s.length := by
  fun_induction quotedBody quote s generalizing body after with
  | case1 => simp at h
  | case2 c rest ih =>
    obtain ⟨⟨b, a⟩, hr, he⟩ := Option.map_eq_some_iff.1 h
    obtain ⟨-, rfl⟩ := Prod.mk.injEq .. ▸ he
    have := ih hr
    simp only [List.length_cons]
    omega
  | case3 rest =>
    obtain ⟨-, rfl⟩ := Prod.mk.injEq .. ▸ Option.some.inj h
    simp
  | case4 c rest _ _ ih =>
    obtain ⟨⟨b, a⟩, hr, he⟩ := Option.map_eq_some_iff.1 h
    obtain ⟨-, rfl⟩ := Prod.mk.injEq .. ▸ he
    have := ih hr
    simp only [List.length_cons]
    omega

/-- Reads the quoted value that begins at position `start` of a text: the content, and the
    position behind the closing quote. -/
def quotedAt (line : Nat) (text : List Char) (start : Nat) :
    Option (Except FormatError (List Char × Nat)) :=
  match text.drop start with
  | [] => none
  | quote :: body => some <| match quotedBody quote body with
    | none => .error ⟨line, .unterminatedQuote (start + 1)⟩
    | some (content, after) => .ok (content, text.length - after.length)

/-! ### Cells -/

/-- A cell as it is written. -/
structure RawCell where
  /-- The value, unescaped or stripped. -/
  value : List Char
  /-- The value stood between quotes. -/
  quoted : Bool
  deriving DecidableEq

/-- The cells of `s`, where `s` is the end of a text of `total` characters. -/
def cellsFrom (line total : Nat) (s : List Char) : Except FormatError (List RawCell) :=
  match _hs : s.dropWhile isFill with
  | [] => .ok [⟨[], false⟩]
  | c :: body =>
    if isQuote c then
      match _hq : quotedBody c body with
      | none => .error ⟨line, .unterminatedQuote (total - body.length : Nat)⟩
      | some (value, after) =>
        match _ha : after.dropWhile isFill with
        | [] => .ok [⟨value, true⟩]
        | d :: more =>
          if d = ',' then (cellsFrom line total more).map (⟨value, true⟩ :: ·)
          else .error ⟨line, .afterQuote d⟩
    else
      let cell : RawCell := ⟨strip ((c :: body).takeWhile (· ≠ ',')), false⟩
      match _hm : (c :: body).dropWhile (· ≠ ',') with
      | [] => .ok [cell]
      | _ :: more => (cellsFrom line total more).map (cell :: ·)
termination_by s.length
decreasing_by
  -- behind the comma that follows a quoted value
  · have h1 := (List.dropWhile_suffix (l := s) isFill).length_le
    have h2 := length_of_quotedBody _hq
    have h3 := (List.dropWhile_suffix (l := after) isFill).length_le
    simp only [_hs, _ha, List.length_cons] at h1 h3
    omega
  -- behind the comma that ends an unquoted value
  · have h1 := (List.dropWhile_suffix (l := s) isFill).length_le
    have h3 := (List.dropWhile_suffix (l := c :: body) (· ≠ ',')).length_le
    simp only [_hs, _hm, List.length_cons] at h1 h3
    omega

/-- Splits a comma separated list; commas between quotes do not separate. -/
def cells (line : Nat) (text : List Char) : Except FormatError (List RawCell) :=
  cellsFrom line text.length text

/-! ### Items of a sparse row -/

/-- Puts `front` before the first item. -/
def prependItem (front : List Char) : List (List Char) → List (List Char)
  | [] => [front]
  | item :: items => (front ++ item) :: items

/-- The items of `s`, where `s` is the end of a text of `total` characters. -/
def sparseItemsFrom (line total : Nat) (s : List Char) : Except FormatError (List (List Char)) :=
  match s with
  | [] => .ok [[]]
  | c :: rest =>
    if isQuote c then
      match _hq : quotedBody c rest with
      | none => .error ⟨line, .unterminatedQuote (total - rest.length : Nat)⟩
      | some (_, after) =>
        (sparseItemsFrom line total after).map
          (prependItem (c :: rest.take (rest.length - after.length)))
    else if c = ',' then (sparseItemsFrom line total rest).map ([] :: ·)
    else (sparseItemsFrom line total rest).map (prependItem [c])
termination_by s.length
decreasing_by
  · have := length_of_quotedBody _hq
    simp only [List.length_cons]
    omega
  · simp
  · simp

/-- Splits the inside of a sparse row at the commas outside quotes; the items are kept as they
    are written. -/
def sparseItems (line : Nat) (text : List Char) : Except FormatError (List (List Char)) :=
  sparseItemsFrom line text.length text

/-! ### Writing a value -/

/-- Characters that an unquoted value must not hold: separators, quotes, braces, the comment and
    escape characters, the missing marker, and all that ends a line somewhere. -/
def needsQuote (c : Char) : Bool :=
  c ∈ [',', '\'', '"', '%', '{', '}', '\\', ' ', '\t', '\n', '\r', '?',
    '\x0b', '\x0c', '\x1c', '\x1d', '\x1e', '\u0085', '\u2028', '\u2029']

/-- The value has to stand between quotes to be read back. -/
def needsQuoting (value : List Char) : Bool :=
  value.isEmpty || decide (strip value ≠ value) || value.head? == some '@' || value.any needsQuote

/-- How a character is written between quotes. -/
def escapeQuoted (c : Char) : List Char :=
  if c = '\\' then ['\\', '\\']
  else if c = '\'' then ['\\', '\'']
  else if c = '\n' then ['\\', 'n']
  else if c = '\t' then ['\\', 't']
  else if c = '\r' then ['\\', 'r']
  else [c]

/-- A value as it is written, between quotes when necessary. -/
def quoteValue (value : List Char) : List Char :=
  if needsQuoting value then '\'' :: value.flatMap escapeQuoted ++ ['\''] else value

end DatasetCatalog.Arff
