/-!
# Text

All data of the service is **text as a list of characters**: query keys, tokens, column names,
stored strings. Reading a request is then recursion on a list, and every statement about a
reader is an induction. `String` appears only where something is printed.

The splitters here are the ones the query language needs. Each keeps empty pieces, so joining the
pieces with the separator gives the text back (`join_pieces`, `join_piecesAtPair`).
-/

namespace TableService

/-- A text is the list of its characters. -/
abbrev Text := List Char

namespace Text

instance lawfulBEq : LawfulBEq Text := inferInstanceAs (LawfulBEq (List Char))

/-- The characters of a literal. -/
abbrev ofString (s : String) : Text := s.toList

/-- The text as it is printed. -/
abbrev toStr (t : Text) : String := String.ofList t

/-! ## 1. Pieces -/

/-- Put a character in front of the first piece. -/
def consFirst (c : Char) : List Text → List Text
  | [] => [[c]]
  | p :: ps => (c :: p) :: ps

/-- The pieces of a text between the occurrences of one character; there is always at least one. -/
def pieces (sep : Char) : Text → List Text
  | [] => [[]]
  | c :: r => if c = sep then [] :: pieces sep r else consFirst c (pieces sep r)

/-- The pieces between the occurrences of a pair of characters, found from the left and never
overlapping. -/
def piecesAtPair (a b : Char) : Text → List Text
  | [] => [[]]
  | [c] => [[c]]
  | c :: d :: r =>
    if c = a ∧ d = b then [] :: piecesAtPair a b r else consFirst c (piecesAtPair a b (d :: r))

/-- Whether two characters stand next to each other somewhere in the text. -/
def hasPair (a b : Char) : Text → Bool
  | [] => false
  | [_] => false
  | c :: d :: r => (c == a && d == b) || hasPair a b (d :: r)

/-- Pieces put together with a separator between them. -/
def join (sep : Text) : List Text → Text
  | [] => []
  | [p] => p
  | p :: q :: ps => p ++ sep ++ join sep (q :: ps)

theorem pieces_ne_nil (sep : Char) (t : Text) : pieces sep t ≠ [] := by
  cases t with
  | nil => simp [pieces]
  | cons c r =>
    unfold pieces
    split
    · simp
    · cases pieces sep r <;> simp [consFirst]

theorem piecesAtPair_ne_nil (a b : Char) : ∀ t : Text, piecesAtPair a b t ≠ []
  | [] => by simp [piecesAtPair]
  | [c] => by simp [piecesAtPair]
  | c :: d :: r => by
    unfold piecesAtPair
    split
    · simp
    · cases piecesAtPair a b (d :: r) <;> simp [consFirst]

theorem join_consFirst (sep : Text) (c : Char) {ps : List Text} (h : ps ≠ []) :
    join sep (consFirst c ps) = c :: join sep ps := by
  match ps, h with
  | [p], _ => rfl
  | p :: q :: ps, _ => rfl

/-- Splitting at a character loses nothing. -/
theorem join_pieces (sep : Char) (t : Text) : join [sep] (pieces sep t) = t := by
  induction t with
  | nil => rfl
  | cons c r ih =>
    unfold pieces
    split
    · rename_i h
      subst h
      obtain ⟨p, ps, hp⟩ := List.exists_cons_of_ne_nil (pieces_ne_nil c r)
      rw [hp] at ih ⊢
      simp [join, ih]
    · rw [join_consFirst _ _ (pieces_ne_nil sep r), ih]

/-- Splitting at a pair loses nothing. -/
theorem join_piecesAtPair (a b : Char) : ∀ t : Text, join [a, b] (piecesAtPair a b t) = t
  | [] => rfl
  | [c] => rfl
  | c :: d :: r => by
    unfold piecesAtPair
    split
    · rename_i h
      obtain ⟨rfl, rfl⟩ := h
      obtain ⟨p, ps, hp⟩ := List.exists_cons_of_ne_nil (piecesAtPair_ne_nil c d r)
      have ih := join_piecesAtPair c d r
      rw [hp] at ih ⊢
      simp [join, ih]
    · rw [join_consFirst _ _ (piecesAtPair_ne_nil a b (d :: r)), join_piecesAtPair a b (d :: r)]

/-! ## 2. Trimming, cutting, replacing -/

/-- The text without the characters of a class at its end. -/
def trimEnd (blank : Char → Bool) (t : Text) : Text := (t.reverse.dropWhile blank).reverse

/-- The text without the characters of a class at both ends. -/
def trim (blank : Char → Bool) (t : Text) : Text := trimEnd blank (t.dropWhile blank)

/-- The part before the first occurrence of a character, and the part after it if there is one. -/
def cutAt (sep : Char) : Text → Text × Option Text
  | [] => ([], none)
  | c :: r => if c = sep then ([], some r) else let (p, q) := cutAt sep r; (c :: p, q)

/-- What follows a given front of the text; `none` if the text does not begin with it. -/
def dropFront? : Text → Text → Option Text
  | [], t => some t
  | _ :: _, [] => none
  | f :: fs, c :: r => if f = c then dropFront? fs r else none

theorem dropFront?_eq_some_iff {front t r : Text} :
    dropFront? front t = some r ↔ t = front ++ r := by
  induction front generalizing t with
  | nil => simp [dropFront?]
  | cons f fs ih =>
    cases t with
    | nil => simp [dropFront?]
    | cons c t =>
      by_cases h : f = c
      · simp [dropFront?, h, ih]
      · simp [dropFront?, h, Ne.symm h]

/-- Every occurrence of a character replaced by a text. -/
def replaceChar (c : Char) (by_ : Text) (t : Text) : Text :=
  t.flatMap fun d => if d = c then by_ else [d]

theorem replaceChar_of_not_mem {c : Char} {by_ t : Text} (h : c ∉ t) : replaceChar c by_ t = t := by
  induction t with
  | nil => rfl
  | cons x t ih =>
    rw [List.mem_cons, not_or] at h
    unfold replaceChar at ih ⊢
    rw [List.flatMap_cons, if_neg (Ne.symm h.1), ih h.2]
    rfl

/-- The ASCII letters in lower case; every other character as it is. -/
def asciiLower (t : Text) : Text := t.map Char.toLower

/-- Order of texts by the code points of their characters, which is the order of their UTF-8
bytes. -/
def compareText : Text → Text → Ordering
  | [], [] => .eq
  | [], _ :: _ => .lt
  | _ :: _, [] => .gt
  | c :: r, d :: s => (compare c.toNat d.toNat).then (compareText r s)

/-- Texts in ascending order. -/
def sortTexts (ts : List Text) : List Text := ts.mergeSort fun a b => compareText a b != .gt

end Text

/-- The decimal digits of a natural number. -/
def natText (n : Nat) : Text := Nat.toDigits 10 n

/-- The decimal form of an integer. -/
def intText (n : Int) : Text := if n < 0 then '-' :: natText n.natAbs else natText n.natAbs

end TableService
