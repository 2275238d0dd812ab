import Mathlib.Data.List.Nodup
import TableService.Proofs.JoinedParameters
import TableService.Proofs.PercentRoundTrip
import TableService.Proofs.Separators

/-!
# Encoded parameters read back

A client writes pairs of texts as a query string: every byte of their UTF-8 that is not unreserved
as an escape, `=` between a key and its value, `&` between pairs. Reading undoes that,

> and what it returns is **each key once, in the order of first appearance, with the values that the
> pairs give it in theirs**, as a text if it is one and as a list if there are several.

Two facts make it up, and they do not know of each other. A written part has no `&`, `=`, `+` or `?`
in it, so the pairs are read as they were written (`pairs_encoded`). And pairs are collected without
loss (`ofPairs_eq_collected`), whatever they came from.
-/

namespace TableService

/-! ## 1. One part -/

namespace Percent

/-- The characters that stand for themselves in every part of an address. -/
def isUnreserved (c : Char) : Bool :=
  decide ('A' ≤ c ∧ c ≤ 'Z') || decide ('a' ≤ c ∧ c ≤ 'z') || decide ('0' ≤ c ∧ c ≤ '9') ||
    ['_', '.', '~', '-'].contains c

/-- A byte as a client writes it. -/
def writeByte (b : UInt8) : Text :=
  if isUnreserved (Char.ofNat b.toNat) then [Char.ofNat b.toNat] else escapeByte b

/-- A key or a value as a client writes it. -/
def writePart (t : Text) : Text := (Utf8.encode t).flatMap writeByte

theorem toNat_lt_of_isUnreserved {c : Char} (h : isUnreserved c = true) : c.toNat < 0x80 := by
  simp only [isUnreserved, Bool.or_eq_true, decide_eq_true_eq, List.contains_iff_mem] at h
  rcases h with ((⟨-, h⟩ | ⟨-, h⟩) | ⟨-, h⟩) | h
  · exact Nat.lt_of_le_of_lt (UInt32.le_iff_toNat_le.mp h) (by decide)
  · exact Nat.lt_of_le_of_lt (UInt32.le_iff_toNat_le.mp h) (by decide)
  · exact Nat.lt_of_le_of_lt (UInt32.le_iff_toNat_le.mp h) (by decide)
  · have hall : ∀ d ∈ ['_', '.', '~', '-'], d.toNat < 0x80 := by simp
    exact hall c h

theorem isUnreserved_upperHexDigit : ∀ n < 16, isUnreserved (upperHexDigit n) = true := by decide

/-- A byte that is written stands for itself. -/
theorem bytes_writeByte (b : UInt8) (t : Text) : bytes (writeByte b ++ t) = b :: bytes t := by
  unfold writeByte
  split
  · next h =>
    have hvalid : b.toNat.isValidChar := .inl (Nat.lt_trans b.toNat_lt (by decide))
    have hb : (Char.ofNat b.toNat).toNat = b.toNat := by
      rw [Char.ofNat, dif_pos hvalid]
      rfl
    have hlow : (Char.ofNat b.toNat).toNat < 0x80 := toNat_lt_of_isUnreserved h
    have hpercent : Char.ofNat b.toNat ≠ '%' := by
      intro heq
      rw [heq] at h
      exact absurd h (by decide)
    rw [List.singleton_append, bytes_cons hpercent, Utf8.encodeChar, if_pos hlow, hb,
      UInt8.ofNat_toNat]
    rfl
  · exact bytes_escapeByte b t

theorem bytes_writePart (t : Text) : bytes (writePart t) = Utf8.encode t := by
  unfold writePart
  induction Utf8.encode t with
  | nil => rfl
  | cons b bs ih => rw [List.flatMap_cons, bytes_writeByte, ih]

/-- What a part is written with. -/
theorem isUnreserved_of_mem_writePart {t : Text} {c : Char} (h : c ∈ writePart t) :
    c = '%' ∨ isUnreserved c = true := by
  obtain ⟨b, -, hc⟩ := List.mem_flatMap.mp h
  unfold writeByte at hc
  split at hc
  · next hb =>
    obtain rfl := List.mem_singleton.mp hc
    exact .inr hb
  · rcases mem_escapeByte hc with rfl | ⟨n, hn, rfl⟩
    · exact .inl rfl
    · exact .inr (isUnreserved_upperHexDigit n hn)

theorem not_mem_writePart {c : Char} (hpercent : c ≠ '%') (h : isUnreserved c = false) (t : Text) :
    c ∉ writePart t := by
  intro hc
  rcases isUnreserved_of_mem_writePart hc with rfl | hplain
  · exact hpercent rfl
  · rw [h] at hplain
    cases hplain

end Percent

/-! ## 2. The pairs -/

theorem Text.cutAt_append_cons {sep : Char} {t : Text} (h : sep ∉ t) (r : Text) :
    cutAt sep (t ++ sep :: r) = (t, some r) := by
  induction t with
  | nil => rw [List.nil_append, cutAt, if_pos rfl]
  | cons c t ih =>
    rw [List.mem_cons, not_or] at h
    rw [List.cons_append, cutAt, if_neg (Ne.symm h.1), ih h.2]

namespace Params

/-- A pair as a client writes it. -/
def writePair (kv : Text × Text) : Text :=
  Percent.writePart kv.1 ++ '=' :: Percent.writePart kv.2

/-- The query string that a client writes for some pairs. -/
def encoded (kvs : List (Text × Text)) : Text := Text.join ['&'] (kvs.map writePair)

theorem decodePart_writePart (t : Text) : decodePart (Percent.writePart t) = t := by
  have hplus : '+' ∉ Percent.writePart t := Percent.not_mem_writePart (by decide) (by decide) t
  have hsame : (Percent.writePart t).map (fun c => if c = '+' then ' ' else c)
      = Percent.writePart t := by
    rw [List.map_congr_left, List.map_id]
    intro c hc
    exact if_neg (ne_of_mem_of_not_mem hc hplus)
  rw [decodePart, hsame, Percent.decode, Percent.bytes_writePart, Utf8.decode_encode]

theorem decodePair_writePair (kv : Text × Text) : decodePair (writePair kv) = kv := by
  have hassign : '=' ∉ Percent.writePart kv.1 :=
    Percent.not_mem_writePart (by decide) (by decide) kv.1
  rw [decodePair, writePair, Text.cutAt_append_cons hassign]
  show (decodePart _, decodePart _) = kv
  rw [decodePart_writePart, Option.getD_some, decodePart_writePart]

theorem not_mem_writePair {c : Char} (hpercent : c ≠ '%') (hassign : c ≠ '=')
    (h : Percent.isUnreserved c = false) (kv : Text × Text) : c ∉ writePair kv := by
  intro hc
  rcases List.mem_append.mp hc with hkey | hc
  · exact Percent.not_mem_writePart hpercent h kv.1 hkey
  · rcases List.mem_cons.mp hc with heq | hvalue
    · exact hassign heq
    · exact Percent.not_mem_writePart hpercent h kv.2 hvalue

/-- **Pairs are read as they were written.** -/
theorem pairs_encoded (kvs : List (Text × Text)) : pairs (encoded kvs) = kvs := by
  cases kvs with
  | nil => rfl
  | cons kv kvs =>
    have hpieces : Text.pieces '&' (encoded (kv :: kvs)) = (kv :: kvs).map writePair := by
      apply Text.pieces_join (by simp)
      intro t ht
      obtain ⟨e, -, rfl⟩ := List.mem_map.mp ht
      exact not_mem_writePair (by decide) (by decide) (by decide) e
    -- A pair without a key and a value is still written as `=`, which is a piece of its own.
    have hfilled : ((kv :: kvs).map writePair).filter (fun p => !p.isEmpty)
        = (kv :: kvs).map writePair := by
      apply List.filter_eq_self.mpr
      intro t ht
      obtain ⟨e, -, rfl⟩ := List.mem_map.mp ht
      simp [writePair]
    rw [pairs, hpieces, hfilled, List.map_map]
    exact List.map_id'' decodePair_writePair _

theorem not_mem_encoded {c : Char} (hpercent : c ≠ '%') (hassign : c ≠ '=') (hjoin : c ≠ '&')
    (h : Percent.isUnreserved c = false) (kvs : List (Text × Text)) : c ∉ encoded kvs := by
  induction kvs with
  | nil => exact List.not_mem_nil
  | cons kv kvs ih =>
    intro hc
    cases kvs with
    | nil => exact not_mem_writePair hpercent hassign h kv hc
    | cons e es =>
      have hcut : encoded (kv :: e :: es) = writePair kv ++ ['&'] ++ encoded (e :: es) := rfl
      rw [hcut] at hc
      rcases List.mem_append.mp hc with hc | hc
      · rcases List.mem_append.mp hc with hc | hc
        · exact not_mem_writePair hpercent hassign h kv hc
        · exact hjoin (List.mem_singleton.mp hc)
      · exact ih hc

theorem ofQuery_encoded_eq (kvs : List (Text × Text)) : ofQuery (encoded kvs) = ofPairs kvs := by
  have hmark : '?' ∉ encoded kvs :=
    not_mem_encoded (by decide) (by decide) (by decide) (by decide) kvs
  have hbare : (encoded kvs).dropWhile (· == '?') = encoded kvs := by
    cases hquery : encoded kvs with
    | nil => rfl
    | cons c t =>
      rw [hquery, List.mem_cons, not_or] at hmark
      rw [List.dropWhile_cons_of_neg (by simpa using Ne.symm hmark.1)]
  rw [ofQuery, hbare, pairs_encoded]

/-! ## 3. What pairs are collected to -/

/-- The values that pairs give a key, in order. -/
def valuesOf (key : Text) (kvs : List (Text × Text)) : List Text :=
  (kvs.filter fun kv => kv.1 == key).map Prod.snd

end Params

/-- What is sent under a key: a text if there is one value, a list if there are several. -/
def Parameter.ofTexts : List Text → Parameter
  | [v] => .one (.text v)
  | vs => .many (vs.map .text)

theorem Parameter.ofTexts_append {vs : List Text} (hne : vs ≠ []) (v : Text) :
    ofTexts (vs ++ [v]) = (ofTexts vs).push (.text v) := by
  match vs with
  | [u] => rfl
  | u :: w :: vs =>
    show many ((u :: w :: (vs ++ [v])).map .text) = many ((u :: w :: vs).map .text ++ [.text v])
    simp

namespace Params

/-- Each key of some pairs with its values. -/
def collected (kvs : List (Text × Text)) : Params :=
  (kvs.map Prod.fst).eraseDups.map fun key => (key, .ofTexts (valuesOf key kvs))

theorem valuesOf_append (key : Text) (kvs : List (Text × Text)) (k v : Text) :
    valuesOf key (kvs ++ [(k, v)]) = valuesOf key kvs ++ if k = key then [v] else [] := by
  rw [valuesOf, List.filter_append, List.map_append]
  by_cases hk : k = key
  · simp [valuesOf, hk]
  · simp [valuesOf, hk]

theorem valuesOf_ne_nil {key : Text} {kvs : List (Text × Text)} (h : key ∈ kvs.map Prod.fst) :
    valuesOf key kvs ≠ [] := by
  obtain ⟨kv, hkv, rfl⟩ := List.mem_map.mp h
  have hmem : kv.2 ∈ valuesOf kv.1 kvs :=
    List.mem_map_of_mem (List.mem_filter.mpr ⟨hkv, beq_self_eq_true _⟩)
  exact List.ne_nil_of_mem hmem

theorem valuesOf_eq_nil {key : Text} {kvs : List (Text × Text)} (h : key ∉ kvs.map Prod.fst) :
    valuesOf key kvs = [] := by
  rw [valuesOf, List.map_eq_nil_iff, List.filter_eq_nil_iff]
  intro kv hkv heq
  obtain rfl := eq_of_beq heq
  exact h (List.mem_map_of_mem hkv)

variable {keys : List Text} {key : Text} {x : Occurrence} {f : Text → Parameter}

theorem add_of_not_mem (h : key ∉ keys) :
    add key x (keys.map fun k => (k, f k)) = keys.map (fun k => (k, f k)) ++ [(key, .one x)] := by
  induction keys with
  | nil => rfl
  | cons k keys ih =>
    rw [List.mem_cons, not_or] at h
    rw [List.map_cons, add, if_neg (Ne.symm h.1), ih h.2, List.cons_append]

/-- Under a key that is there, a value comes behind the others, and nothing else changes. -/
theorem add_of_mem (hkeys : keys.Nodup) (h : key ∈ keys) :
    add key x (keys.map fun k => (k, f k))
      = keys.map fun k => (k, if key = k then (f k).push x else f k) := by
  induction keys with
  | nil => cases h
  | cons k keys ih =>
    obtain ⟨hk, hkeys⟩ := List.nodup_cons.mp hkeys
    rw [List.map_cons, List.map_cons, add]
    by_cases heq : k = key
    · subst heq
      rw [if_pos rfl, if_pos rfl]
      congr 1
      apply List.map_congr_left
      intro k' hk'
      rw [if_neg (ne_of_mem_of_not_mem hk' hk).symm]
    · rw [if_neg heq, if_neg (Ne.symm heq),
        ih hkeys ((List.mem_cons.mp h).resolve_left (Ne.symm heq))]

/-- A key behind the others is a new one, or it is left out. -/
theorem eraseDups_append_singleton (keys : List Text) (key : Text) :
    (keys ++ [key]).eraseDups
      = if key ∈ keys then keys.eraseDups else keys.eraseDups ++ [key] := by
  rw [List.eraseDups_append, List.removeAll, List.filter_singleton]
  by_cases hmem : key ∈ keys
  · simp [hmem]
  · simp [hmem, List.eraseDups_cons]

theorem nodup_eraseDups (keys : List Text) : keys.eraseDups.Nodup := by
  induction keys using List.reverseRecOn with
  | nil => exact List.nodup_nil
  | append_singleton keys key ih =>
    rw [eraseDups_append_singleton]
    split
    · exact ih
    · next hkey =>
      rw [← List.concat_eq_append]
      exact ih.concat (mt List.mem_eraseDups.mp hkey)

/-- What one more pair adds: a value behind the others of its key, or a key behind the others. -/
theorem collected_append (kvs : List (Text × Text)) (key v : Text) :
    collected (kvs ++ [(key, v)]) = add key (.text v) (collected kvs) := by
  have hkeys := nodup_eraseDups (kvs.map Prod.fst)
  rw [collected, collected, List.map_append, List.map_singleton, eraseDups_append_singleton]
  split
  · next hmem =>
    rw [add_of_mem hkeys (List.mem_eraseDups.mpr hmem)]
    apply List.map_congr_left
    intro k hk
    rw [valuesOf_append]
    split
    · rw [Parameter.ofTexts_append (valuesOf_ne_nil (List.mem_eraseDups.mp hk))]
    · rw [List.append_nil]
  · next hmem =>
    rw [add_of_not_mem (mt List.mem_eraseDups.mp hmem), List.map_append]
    congr 1
    · apply List.map_congr_left
      intro k hk
      have hne : key ≠ k := (ne_of_mem_of_not_mem (List.mem_eraseDups.mp hk) hmem).symm
      rw [valuesOf_append, if_neg hne, List.append_nil]
    · rw [List.map_singleton, valuesOf_append, valuesOf_eq_nil hmem, if_pos rfl]
      rfl

/-- **What pairs are collected to**, whatever they are pairs of. -/
theorem ofPairs_eq_collected (kvs : List (Text × Text)) : ofPairs kvs = collected kvs := by
  induction kvs using List.reverseRecOn with
  | nil => rfl
  | append_singleton kvs kv ih =>
    have hlast : ofPairs (kvs ++ [kv]) = add kv.1 (.text kv.2) (ofPairs kvs) := by
      rw [ofPairs, List.foldl_append]
      rfl
    rw [hlast, ih, collected_append]

/-- **Encoded parameters read back**: each key once, in the order of first appearance, with its
value or the list of its values. -/
theorem ofQuery_encoded (kvs : List (Text × Text)) : ofQuery (encoded kvs) = collected kvs := by
  rw [ofQuery_encoded_eq, ofPairs_eq_collected]

end Params
end TableService
