import TableService.Text.Basic

/-!
# Cutting what was joined

`join_pieces` and `join_piecesAtPair` say that cutting a text loses nothing. Here is the other
direction: **when the pieces of a joined text are the texts that were joined.** At a single
character this is so whenever none of them has the character in it. At a pair of equal characters it
takes more, since a separator is found from the left: a piece that ends in the character would lend
it to the separator behind.
-/

namespace TableService
namespace Text

/-! ## 1. At a character -/

/-- A text without the separator is one piece. -/
theorem pieces_of_not_mem {sep : Char} {t : Text} (h : sep ∉ t) : pieces sep t = [t] := by
  induction t with
  | nil => rfl
  | cons c t ih =>
    rw [List.mem_cons, not_or] at h
    rw [pieces, if_neg (Ne.symm h.1), ih h.2]
    rfl

/-- A text with a separator in it is split into the pieces of both sides. -/
theorem pieces_append_sep (sep : Char) (s t : Text) :
    pieces sep (s ++ sep :: t) = pieces sep s ++ pieces sep t := by
  induction s with
  | nil => simp [pieces]
  | cons c s ih =>
    rw [List.cons_append, pieces, pieces, ih]
    split
    · rfl
    · cases hpieces : pieces sep s with
      | nil => exact absurd hpieces (pieces_ne_nil sep s)
      | cons p ps => rfl

theorem join_cons_cons (sep p q : Text) (ps : List Text) :
    join sep (p :: q :: ps) = p ++ sep ++ join sep (q :: ps) := rfl

/-- A joined text is cut where it was joined, and where the texts themselves are. -/
theorem pieces_join_eq_flatMap {sep : Char} {ts : List Text} (hne : ts ≠ []) :
    pieces sep (join [sep] ts) = ts.flatMap (pieces sep) := by
  induction ts with
  | nil => exact absurd rfl hne
  | cons t ts ih =>
    cases ts with
    | nil => exact (List.append_nil _).symm
    | cons u us =>
      rw [join_cons_cons, List.append_assoc, List.singleton_append, pieces_append_sep,
        ih (List.cons_ne_nil u us)]
      exact List.flatMap_cons.symm

/-- Texts without the separator are the pieces of the text that they are joined to. -/
theorem pieces_join {sep : Char} {ts : List Text} (hne : ts ≠ []) (h : ∀ t ∈ ts, sep ∉ t) :
    pieces sep (join [sep] ts) = ts := by
  have hwhole : ts.map (pieces sep) = ts.map fun t => [t] :=
    List.map_congr_left fun t ht => pieces_of_not_mem (h t ht)
  rw [pieces_join_eq_flatMap hne, List.flatMap_def, hwhole, ← List.flatMap_def,
    List.flatMap_singleton']

theorem not_mem_of_mem_pieces {sep : Char} {t p : Text} (h : p ∈ pieces sep t) : sep ∉ p := by
  induction t generalizing p with
  | nil =>
    obtain rfl := List.mem_singleton.mp h
    exact List.not_mem_nil
  | cons c t ih =>
    rw [pieces] at h
    split at h
    · rcases List.mem_cons.mp h with rfl | h
      · exact List.not_mem_nil
      · exact ih h
    · next hc =>
      obtain ⟨q, qs, hq⟩ := List.exists_cons_of_ne_nil (pieces_ne_nil sep t)
      rw [hq] at h ih
      rcases List.mem_cons.mp h with rfl | h
      · rw [List.mem_cons, not_or]
        exact ⟨Ne.symm hc, ih List.mem_cons_self⟩
      · exact ih (List.mem_cons_of_mem _ h)

/-! ## 2. At a pair -/

variable {a b c : Char} {t : Text}

theorem hasPair_cons_of_ne (h : c ≠ a) : hasPair a b (c :: t) = hasPair a b t := by
  cases t with
  | nil => rfl
  | cons d t =>
    have hc : (c == a) = false := beq_false_of_ne h
    rw [hasPair, hc, Bool.false_and, Bool.false_or]

/-- A text that has a pair in front of another text has it in all of both. -/
theorem hasPair_append_pair (s r : Text) : hasPair a b (s ++ a :: b :: r) = true := by
  induction s with
  | nil => simp [hasPair]
  | cons c s ih =>
    cases s with
    | nil =>
      rw [List.nil_append] at ih
      rw [List.cons_append, List.nil_append, hasPair, ih, Bool.or_true]
    | cons d s =>
      rw [List.cons_append] at ih
      rw [List.cons_append, List.cons_append, hasPair, ih, Bool.or_true]

/-- No pair stands across a character that is in neither place of it. -/
theorem hasPair_append_cons (ha : c ≠ a) (hb : c ≠ b) (s r : Text) :
    hasPair a b (s ++ c :: r) = (hasPair a b s || hasPair a b r) := by
  induction s with
  | nil => rw [List.nil_append, hasPair_cons_of_ne ha, hasPair, Bool.false_or]
  | cons d s ih =>
    cases s with
    | nil =>
      have hc : (c == b) = false := beq_false_of_ne hb
      simp [hasPair, hc, hasPair_cons_of_ne ha]
    | cons e s =>
      rw [List.cons_append] at ih
      rw [List.cons_append, List.cons_append, hasPair, ih, hasPair, Bool.or_assoc]

theorem hasPair_join {sep : Char} (ha : sep ≠ a) (hb : sep ≠ b) {ts : List Text} :
    hasPair a b (join [sep] ts) = false ↔ ∀ t ∈ ts, hasPair a b t = false := by
  induction ts with
  | nil => simp [join, hasPair]
  | cons t ts ih =>
    cases ts with
    | nil => simp [join]
    | cons u us =>
      rw [join_cons_cons, List.append_assoc, List.singleton_append, hasPair_append_cons ha hb,
        Bool.or_eq_false_iff, ih]
      exact (List.forall_mem_cons (p := fun t => hasPair a b t = false)).symm

/-- What the first piece begins with: the first character, unless a separator stands there. -/
theorem piecesAtPair_cons (a b c : Char) (t : Text) :
    (c = a ∧ ∃ ps, piecesAtPair a b (c :: t) = [] :: ps) ∨
      ∃ p ps, piecesAtPair a b (c :: t) = (c :: p) :: ps := by
  cases t with
  | nil => exact .inr ⟨[], [], rfl⟩
  | cons d t =>
    rw [piecesAtPair]
    split
    · next h => exact .inl ⟨h.1, _, rfl⟩
    · obtain ⟨p, ps, hp⟩ := List.exists_cons_of_ne_nil (piecesAtPair_ne_nil a b (d :: t))
      rw [hp]
      exact .inr ⟨p, ps, rfl⟩

theorem piecesAtPair_of_not_hasPair : ∀ {t : Text}, hasPair a b t = false →
    piecesAtPair a b t = [t]
  | [], _ => rfl
  | [_], _ => rfl
  | c :: d :: t, h => by
    rw [hasPair, Bool.or_eq_false_iff] at h
    rw [piecesAtPair, if_neg (by simpa using h.1), piecesAtPair_of_not_hasPair h.2]
    rfl

theorem hasPair_of_mem_piecesAtPair : ∀ {t p : Text}, p ∈ piecesAtPair a b t →
    hasPair a b p = false
  | [], p, h => by
    obtain rfl := List.mem_singleton.mp h
    rfl
  | [c], p, h => by
    obtain rfl := List.mem_singleton.mp h
    rfl
  | c :: d :: t, p, h => by
    rw [piecesAtPair] at h
    split at h
    · rcases List.mem_cons.mp h with rfl | h
      · rfl
      · exact hasPair_of_mem_piecesAtPair h
    · next hpair =>
      have ih : ∀ q ∈ piecesAtPair a b (d :: t), hasPair a b q = false := fun q hq =>
        hasPair_of_mem_piecesAtPair hq
      rcases piecesAtPair_cons a b d t with ⟨-, ps, hps⟩ | ⟨q, ps, hps⟩
      · rw [hps] at h ih
        rcases List.mem_cons.mp h with rfl | h
        · rfl
        · exact ih p (List.mem_cons_of_mem _ h)
      · rw [hps] at h ih
        rcases List.mem_cons.mp h with rfl | h
        · rw [hasPair, ih _ List.mem_cons_self, Bool.or_false]
          simpa using hpair
        · exact ih p (List.mem_cons_of_mem _ h)

/-- A piece in front of a separator does not end in its character. -/
theorem getLast?_of_piecesAtPair : ∀ {t p q : Text} {ps : List Text},
    piecesAtPair a a t = p :: q :: ps → p.getLast? ≠ some a
  | [], _, _, _, h => by
    simp [piecesAtPair] at h
  | [c], _, _, _, h => by
    simp [piecesAtPair] at h
  | c :: d :: t, p, q, ps, h => by
    rw [piecesAtPair] at h
    split at h
    · obtain ⟨rfl, -⟩ := List.cons.inj h
      simp
    · next hpair =>
      rcases piecesAtPair_cons a a d t with ⟨rfl, rs, hrs⟩ | ⟨r, rs, hrs⟩
      -- The separator follows at once, so the one character in front is another.
      · rw [hrs] at h
        obtain ⟨rfl, -⟩ := List.cons.inj h
        simpa using hpair
      · rw [hrs] at h
        obtain ⟨rfl, hrest⟩ := List.cons.inj h
        rw [hrest] at hrs
        rw [List.getLast?_cons_cons]
        exact getLast?_of_piecesAtPair hrs

theorem piecesAtPair_append : ∀ {low : Text} (high : Text), hasPair a a low = false →
    low.getLast? ≠ some a → piecesAtPair a a (low ++ a :: a :: high) = low :: piecesAtPair a a high
  | [], high, _, _ => by
    rw [List.nil_append, piecesAtPair, if_pos ⟨rfl, rfl⟩]
  | [c], high, _, hlast => by
    have hc : c ≠ a := by simpa using hlast
    rw [List.singleton_append, piecesAtPair, if_neg fun h => hc h.1, piecesAtPair,
      if_pos ⟨rfl, rfl⟩]
    rfl
  | c :: d :: low, high, hlow, hlast => by
    rw [hasPair, Bool.or_eq_false_iff] at hlow
    rw [List.getLast?_cons_cons] at hlast
    have ih := piecesAtPair_append high hlow.2 hlast
    rw [List.cons_append] at ih
    rw [List.cons_append, List.cons_append, piecesAtPair, if_neg (by simpa using hlow.1), ih]
    rfl

/-- **When a text has the two pieces that it was joined of.** -/
theorem piecesAtPair_eq_pair {low high : Text} :
    piecesAtPair a a t = [low, high] ↔
      join [a, a] [low, high] = t ∧
        (hasPair a a low = false ∧ low.getLast? ≠ some a) ∧ hasPair a a high = false := by
  constructor
  · intro h
    refine ⟨?_, ⟨?_, getLast?_of_piecesAtPair h⟩, ?_⟩
    · rw [← h, join_piecesAtPair]
    · exact hasPair_of_mem_piecesAtPair (h ▸ List.mem_cons_self)
    · exact hasPair_of_mem_piecesAtPair (h ▸ List.mem_cons_of_mem _ List.mem_cons_self)
  · rintro ⟨rfl, ⟨hlow, hlast⟩, hhigh⟩
    rw [join_cons_cons, List.append_assoc]
    show piecesAtPair a a (low ++ a :: a :: high) = [low, high]
    rw [piecesAtPair_append high hlow hlast, piecesAtPair_of_not_hasPair hhigh]

end Text
end TableService
