import TableService.Proofs.GroupFaults
import TableService.Proofs.GroupWriting

/-!
# The place that is told is where a group breaks

A text that is no group can still be **begun** like one, and there is one place up to which it is:
what stands in front of it can be completed to a group, and with the next character it cannot any
more. The reader tells exactly this place, although it takes keys and values as wholes and never
looks ahead.

What may follow is said for the texts in front of a reader, by induction on how they open a group:

> what stands behind an opening has to **fill a level**, with terms and the `)` behind them
> (`hasLevel_of_opens`), and any terms that stand there can be completed (`beginsGroup_of_opens`).

A level begins with a term, and the cut of its key decides what the next characters may be
(`HasLevel.behind_key`). So each refusal is one comparison of the character that stands there with
those that a level goes on with. The place is right for every depth of reading that is enough for
the text; a reader whose depth ran out would tell a place where nothing is wrong.
-/

namespace TableService
namespace Group

/-! ## 1. What is begun like a group -/

/-- Whether a text is a whole group. -/
def IsGroup (allowed : List Text) (t : Text) : Prop := ∃ xs, Derives allowed (.group xs) t

/-- Whether a text can be completed to a group. -/
def BeginsGroup (allowed : List Text) (t : Text) : Prop := ∃ r, IsGroup allowed (t ++ r)

/-- Whether a text is begun like a group up to a place, and no further: the text ends there and is
no group, or it cannot be completed with the character that stands there. -/
structure BreaksAt (allowed : List Text) (t : Text) (place : Nat) : Prop where
  begins : BeginsGroup allowed (t.take place)
  breaks : (place = t.length ∧ ¬ IsGroup allowed t) ∨ ¬ BeginsGroup allowed (t.take (place + 1))

/-- Whether a text begins with the rest of a level, from a term on. -/
def HasLevel (allowed : List Text) (t : Text) : Prop :=
  ∃ xs s r, Derives allowed (.terms xs) s ∧ t = s ++ ')' :: r

variable {allowed : List Text} {kind : Connective} {slots : List Slot} {depth pos : Nat}
  {s t u v w z r key : Text} {x : Term} {e : QueryFault}

theorem BeginsGroup.front (h : BeginsGroup allowed (s ++ t)) : BeginsGroup allowed s := by
  obtain ⟨r, hr⟩ := h
  exact ⟨t ++ r, by rwa [← List.append_assoc]⟩

/-- Where a reader stands a text breaks, if it is begun like a group up to there and no group goes
on with the character in front. -/
theorem Stands.breaksAt (h : Stands w u t pos) (hbegins : BeginsGroup allowed u)
    (hstops : ∀ z, IsGroup allowed (u ++ z) → z.head? ≠ t.head?) : BreaksAt allowed w pos := by
  obtain ⟨rfl, rfl⟩ := h
  refine ⟨by simpa using hbegins, ?_⟩
  cases t with
  | nil =>
    refine .inl ⟨by simp, fun hgroup => ?_⟩
    exact hstops [] hgroup rfl
  | cons c t =>
    refine .inr ?_
    rintro ⟨r, hr⟩
    rw [List.take_length_add_append] at hr
    exact hstops (c :: r) (by simpa using hr) rfl

/-! ## 2. What a level may go on with -/

/-- Whether a text may stand behind a term: the level ends, or it goes on with another term. -/
def Continues (allowed : List Text) (t : Text) : Prop :=
  (∃ v, t = ')' :: v) ∨ ∃ v, t = '|' :: v ∧ HasLevel allowed v

theorem Continues.exists_head (h : Continues allowed t) :
    ∃ c, t.head? = some c ∧ endsValue c = true := by
  rcases h with ⟨v, rfl⟩ | ⟨v, rfl, -⟩
  · exact ⟨')', rfl, rfl⟩
  · exact ⟨'|', rfl, rfl⟩

theorem Continues.beginsIn (h : Continues allowed t) : BeginsIn endsValue t := by
  obtain ⟨c, hc, hstop⟩ := h.exists_head
  intro d hd
  obtain rfl : c = d := Option.some.inj (hc.symm.trans hd)
  exact hstop

theorem HasLevel.exists_term (h : HasLevel allowed t) :
    ∃ x s r, Derives allowed (.term x) s ∧ t = s ++ r ∧ Continues allowed r := by
  obtain ⟨xs, s, r, hs, rfl⟩ := h
  cases hs with
  | last hx => exact ⟨_, s, _, hx, rfl, .inl ⟨r, rfl⟩⟩
  | @more x xs s v hx hxs =>
    exact ⟨x, s, _, hx, List.append_assoc s _ _, .inr ⟨v ++ ')' :: r, rfl, _, v, r, hxs, rfl⟩⟩

/-- What stands behind a term, if the cut does not let the term go on. -/
theorem HasLevel.behind_term (h : HasLevel allowed (s ++ z)) (hx : Derives allowed (.term x) s)
    (hz : BeginsIn endsValue z) : Continues allowed z := by
  obtain ⟨y, s', r, hy, heq, hr⟩ := h.exists_term
  obtain ⟨-, rfl⟩ := single_of_derives hx y s' z r hy hz hr.beginsIn heq
  exact hr

/-- **A key decides what follows it.** Behind a connective stands a group, and behind a field the
end of its term or an `=`. -/
theorem HasLevel.behind_key (h : HasLevel allowed (key ++ z)) (hkey : IsKey key)
    (hz : BeginsIn endsKey z) :
    (∃ kind : Connective, Percent.decode key = kind.key ∧
      ∃ xs g r, Derives allowed (.group xs) g ∧ z = '=' :: (g ++ r) ∧ Continues allowed r) ∨
    (IsField allowed (Percent.decode key) ∧ (Continues allowed z ∨ ∃ v, z = '=' :: v)) := by
  obtain ⟨x, s, r, hx, heq, hr⟩ := h.exists_term
  cases hx with
  | @nested kind xs key' g hkey' hkind hgroup =>
    rw [List.append_assoc] at heq
    obtain ⟨rfl, rfl⟩ := cut_unique (key_stops hkey) hz (key_stops hkey') (beginsIn_cons rfl _) heq
    exact .inl ⟨kind, hkind, xs, g, r, hgroup, rfl, hr⟩
  | bare hkey' hfield =>
    obtain ⟨rfl, rfl⟩ := cut_unique (key_stops hkey) hz (key_stops hkey')
      hr.beginsIn.key_of_value heq
    exact .inr ⟨hfield, .inl hr⟩
  | valued hkey' hfield hvalue =>
    rw [List.append_assoc] at heq
    obtain ⟨rfl, rfl⟩ := cut_unique (key_stops hkey) hz (key_stops hkey') (beginsIn_cons rfl _) heq
    exact .inr ⟨hfield, .inr ⟨_, rfl⟩⟩

/-- Behind the key of a connective stand an `=` and a group. -/
theorem HasLevel.behind_connective (h : HasLevel allowed (key ++ z)) (hkey : IsKey key)
    (hkind : Percent.decode key = kind.key) (hz : BeginsIn endsKey z) :
    ∃ xs g r, Derives allowed (.group xs) g ∧ z = '=' :: (g ++ r) ∧ Continues allowed r := by
  rcases h.behind_key hkey hz with ⟨-, -, hgroup⟩ | ⟨hfield, -⟩
  · exact hgroup
  · exact absurd hkind (hfield.ne_key kind)

theorem exists_of_derives_group {xs : List Term} (h : Derives allowed (.group xs) s) :
    ∃ v, s = '(' :: (v ++ [')']) ∧ Derives allowed (.terms xs) v := by
  cases h with
  | group h => exact ⟨_, rfl, h⟩

/-- **What stands behind an opening fills a level**, if the whole is a group. -/
theorem hasLevel_of_opens (h : Opens allowed u) :
    ∀ {z}, IsGroup allowed (u ++ z) → HasLevel allowed z := by
  -- Behind an opening with more in it, the level of the shorter one is taken apart.
  induction h with
  | outer =>
    rintro z ⟨xs, hxs⟩
    obtain ⟨v, hv, hterms⟩ := exists_of_derives_group hxs
    exact ⟨xs, v, [], hterms, (List.cons.inj hv).2⟩
  | @inner u key kind _ hkey hkind ih =>
    intro z hz
    have hlevel : HasLevel allowed (key ++ '=' :: '(' :: z) := ih (by simpa using hz)
    obtain ⟨xs, g, r, hg, heq, -⟩ := hlevel.behind_connective hkey hkind (beginsIn_cons rfl _)
    obtain ⟨v, rfl, hterms⟩ := exists_of_derives_group hg
    exact ⟨xs, v, r, hterms, by simpa using heq⟩
  | @next u s x _ hx ih =>
    intro z hz
    have hlevel : HasLevel allowed (s ++ '|' :: z) := ih (by simpa using hz)
    rcases hlevel.behind_term hx (beginsIn_cons rfl _) with ⟨v, hv⟩ | ⟨v, hv, hrest⟩
    · cases hv
    · cases hv
      exact hrest

/-- Whatever opens a group, terms behind it can be completed. -/
theorem beginsGroup_of_opens (h : Opens allowed u) :
    ∀ {xs s}, Derives allowed (.terms xs) s → BeginsGroup allowed (u ++ s ++ [')']) := by
  induction h with
  | outer =>
    intro xs s hs
    exact ⟨[], xs, by simpa using Derives.group hs⟩
  | inner _ hkey hkind ih =>
    intro xs s hs
    have hbegins := ih (.last (.nested hkey hkind (.group hs)))
    refine BeginsGroup.front (t := [')']) ?_
    simpa using hbegins
  | next _ hx ih =>
    intro xs s hs
    simpa using ih (.more hx hs)

theorem BeginsGroup.of_term (h : Opens allowed u) (hx : Derives allowed (.term x) s) :
    BeginsGroup allowed (u ++ s) := (beginsGroup_of_opens h (.last hx)).front

theorem BeginsGroup.of_opens (hfield : ∃ name, IsField allowed name) (h : Opens allowed u) :
    BeginsGroup allowed u := by
  obtain ⟨name, hname⟩ := hfield
  exact (BeginsGroup.of_term h (derives_field hname [])).front

/-- The key of a connective, where a term may stand. -/
theorem BeginsGroup.of_connective (hfield : ∃ name, IsField allowed name) (hu : Opens allowed u)
    (hkey : IsKey key) (hkind : Percent.decode key = kind.key) :
    BeginsGroup allowed (u ++ key) := by
  obtain ⟨name, hname⟩ := hfield
  have hnested := Derives.nested hkey hkind (.group (.last (derives_field hname [])))
  have hbegins := BeginsGroup.of_term hu hnested
  rw [← List.append_assoc] at hbegins
  exact hbegins.front

/-- Where a group is opened, the text in front is followed by a `(`. -/
theorem head?_of_opens (h : Opens allowed (u ++ ['('])) (hz : IsGroup allowed (u ++ z)) :
    z.head? = some '(' := by
  generalize hv : u ++ ['('] = v at h
  cases h with
  | outer =>
    obtain rfl : u = [] := by simpa using hv
    obtain ⟨xs, hxs⟩ := hz
    obtain ⟨v, hv, -⟩ := exists_of_derives_group hxs
    rw [List.nil_append] at hv
    rw [hv]
    rfl
  | @inner u' key kind hopens hkey hkind =>
    have hfront : u = u' ++ key ++ ['='] := by
      refine List.append_cancel_right (hv.trans ?_)
      simp
    subst hfront
    have hlevel : HasLevel allowed (key ++ '=' :: z) := hasLevel_of_opens hopens (by simpa using hz)
    obtain ⟨xs, g, r, hg, heq, -⟩ := hlevel.behind_connective hkey hkind (beginsIn_cons rfl _)
    obtain ⟨v, rfl, -⟩ := exists_of_derives_group hg
    rw [(List.cons.inj heq).2]
    rfl
  | next hopens hx =>
    have hlast := (List.append_inj' hv rfl).2
    cases hlast

/-! ## 3. Where the readers stop -/

theorem BeginsIn.of_head? {stop : Char → Bool} (h : BeginsIn stop t) (hz : z.head? = t.head?) :
    BeginsIn stop z := by
  unfold BeginsIn
  rw [hz]
  exact h

/-- Whether the place that a fault tells, if any, is the right one. -/
inductive IsPlaced (allowed : List Text) (t : Text) : QueryFault → Prop where
  | form {kind : Connective} {fault : GroupFault} {place : Nat} (h : BreaksAt allowed t place) :
      IsPlaced allowed t (.group kind fault place)
  | unknown {name : Text} {place : Nat} (hbegins : BeginsGroup allowed (t.take place))
      (hname : Percent.decode (before endsKey (t.drop place)) = name) (hfield : name ∉ allowed)
      (hkind : ∀ kind : Connective, name ≠ kind.key) :
      IsPlaced allowed t (.unknownField name (some place))
  | value {e : QueryFault} (h : e.position = none) : IsPlaced allowed t e

theorem position_of_close : ∀ {slots : List Slot} {e : QueryFault}, Slot.close slots = .error e →
    e.position = none
  | [], _, h => by
    cases h
  | .nested f :: slots, e, h => by
    rw [Slot.close] at h
    split at h
    · next e' he =>
      cases h
      exact position_of_close he
    · cases h
  | .values name raws :: slots, e, h => by
    rw [Slot.close] at h
    split at h
    · next e' he =>
      cases h
      rcases Filter.fault_of_ofValues he with rfl | ⟨raw, -, hraw⟩
      · rfl
      · rcases Predicate.isFault_of_read hraw with ⟨-, -, hplace⟩ | ⟨rfl, -⟩
        · exact hplace
        · rfl
    · split at h
      · next e' he =>
        cases h
        exact position_of_close he
      · cases h

/-- Whether the readers of a depth, wherever they stand in a text that is not too long for it, tell
the place where the text breaks. Behind a term, what stands in front did not let the term go on. -/
structure ReadersStop (allowed : List Text) (kind : Connective) (w : Text) (depth : Nat) :
    Prop where
  group : ∀ {u t pos e}, Stands w u t pos → t.length < depth → Opens allowed (u ++ ['(']) →
    readGroup allowed kind depth pos t = .error e → IsPlaced allowed w e
  term : ∀ {u t pos slots e}, Stands w u t pos → t.length < depth → Opens allowed u →
    readTerm allowed kind depth pos slots t = .error e → IsPlaced allowed w e
  next : ∀ {u s x t pos slots e}, Stands w (u ++ s) t pos → t.length < depth → Opens allowed u →
    Derives allowed (.term x) s →
    (∀ z, HasLevel allowed (s ++ z) → z.head? = t.head? → Continues allowed z) →
      readNext allowed kind depth pos slots t = .error e → IsPlaced allowed w e

theorem isPlaced_of_readGroup (hfield : ∃ name, IsField allowed name)
    (ih : ReadersStop allowed kind w depth) (hw : Stands w u t pos) (hlen : t.length < depth + 1)
    (hu : Opens allowed (u ++ ['('])) (h : readGroup allowed kind (depth + 1) pos t = .error e) :
    IsPlaced allowed w e := by
  unfold readGroup at h
  split at h
  · next v =>
    cases h
    have hopened := hw.step (s := ['(']) (t := ')' :: v)
    refine .form (hopened.breaksAt (.of_opens hfield hu) ?_)
    -- No term is empty, so a level does not begin with its `)`.
    intro z hz hhead
    obtain ⟨xs, s, r, hs, rfl⟩ := hasLevel_of_opens hu hz
    obtain ⟨c, s, rfl, hc⟩ := exists_cons_of_terms hs
    obtain rfl : c = ')' := Option.some.inj hhead
    cases hc
  · next v _ => exact ih.term (hw.step (s := ['(']) (t := v)) (by simpa using hlen) hu h
  · next hopen =>
    cases h
    refine .form (hw.breaksAt (BeginsGroup.of_opens hfield hu).front ?_)
    intro z hz hhead
    rw [head?_of_opens hu hz] at hhead
    obtain ⟨v, rfl⟩ := List.head?_eq_some_iff.mp hhead.symm
    exact hopen v rfl

theorem isPlaced_of_readNext (ih : ReadersStop allowed kind w depth)
    (hw : Stands w (u ++ s) t pos) (hlen : t.length < depth + 1) (hu : Opens allowed u)
    (hx : Derives allowed (.term x) s)
    (hend : ∀ z, HasLevel allowed (s ++ z) → z.head? = t.head? → Continues allowed z)
    (h : readNext allowed kind (depth + 1) pos slots t = .error e) : IsPlaced allowed w e := by
  have hbreaks : (∀ c ∈ t.head?, endsValue c = false) → BreaksAt allowed w pos := by
    intro hstop
    refine hw.breaksAt (.of_term hu hx) ?_
    intro z hz hhead
    have hlevel : HasLevel allowed (s ++ z) := hasLevel_of_opens hu (by simpa using hz)
    obtain ⟨c, hc, hends⟩ := (hend z hlevel hhead).exists_head
    rw [hstop c (hhead ▸ hc)] at hends
    cases hends
  unfold readNext at h
  split at h
  · next v => exact ih.term (hw.step (s := ['|']) (t := v)) (by simpa using hlen) (hu.next hx) h
  · split at h
    · next e' he =>
      cases h
      exact .value (position_of_close he)
    · cases h
  · cases h
    exact .form (hbreaks (by simp))
  · next c v hmore hclose =>
    cases h
    refine .form (hbreaks ?_)
    intro d hd
    obtain rfl : c = d := Option.some.inj hd
    refine endsValue_eq_false_iff.mpr ?_
    simp only [List.mem_cons, List.not_mem_nil, or_false, not_or]
    exact ⟨hmore, hclose⟩

theorem isPlaced_behind_nested {inner : Connective} {gs : List Filter} {place : Nat}
    (ih : ReadersStop allowed kind w depth) (hafter : Stands w (u ++ key) ('=' :: v) pos)
    (hlen : v.length < depth) (hu : Opens allowed u) (hkey : IsKey key)
    (hkind : Percent.decode key = inner.key)
    (hok : readGroup allowed kind depth (pos + 1) v = .ok (gs, place, r))
    (h : readNext allowed kind depth place slots r = .error e) : IsPlaced allowed w e := by
  obtain ⟨xs, s, rfl, hs, -⟩ := (reads_sound allowed kind depth).1 hok
  have hplace := (readersMove allowed kind depth).group hok
  rw [List.length_append] at hlen hplace
  have hbehind : Stands w (u ++ (key ++ '=' :: s)) r place := by
    apply hafter.behind
    simp only [List.length_append, List.length_cons]
    omega
  refine ih.next hbehind (by omega) hu (.nested hkey hkind hs) ?_ h
  -- The group ends where its text does, whatever is said to follow it.
  intro z hz _
  rw [List.append_assoc] at hz
  obtain ⟨ys, g, r, hg, heq, hr⟩ := hz.behind_connective hkey hkind (beginsIn_cons rfl _)
  obtain ⟨-, rfl⟩ := single_of_derives hs ys g z r hg (List.cons.inj heq).2
  exact hr

theorem isPlaced_behind_valued (ih : ReadersStop allowed kind w depth)
    (hafter : Stands w (u ++ key) ('=' :: v) pos) (hlen : v.length < depth) (hu : Opens allowed u)
    (hkey : IsKey key) (hfield : IsField allowed (Percent.decode key))
    (h : readNext allowed kind depth (pos + 1 + (before endsValue v).length) slots
      (onward endsValue v) = .error e) : IsPlaced allowed w e := by
  have hcut := congrArg List.length (before_append_onward endsValue v)
  rw [List.length_append] at hcut
  rw [← before_append_onward endsValue v] at hafter
  have hbehind : Stands w (u ++ (key ++ '=' :: before endsValue v)) (onward endsValue v)
      (pos + 1 + (before endsValue v).length) := by
    apply hafter.behind
    simp only [List.length_append, List.length_cons]
    omega
  have hx := Derives.valued hkey hfield (isValue_before v)
  refine ih.next hbehind (by omega) hu hx ?_ h
  intro z hz hhead
  exact hz.behind_term hx ((beginsIn_onward endsValue v).of_head? hhead)

theorem isPlaced_behind_bare (ih : ReadersStop allowed kind w depth)
    (hafter : Stands w (u ++ key) t pos) (hlen : t.length < depth) (hu : Opens allowed u)
    (hkey : IsKey key) (hfield : IsField allowed (Percent.decode key)) (hstop : BeginsIn endsKey t)
    (hassign : ∀ v, t ≠ '=' :: v) (h : readNext allowed kind depth pos slots t = .error e) :
    IsPlaced allowed w e := by
  refine ih.next hafter hlen hu (.bare hkey hfield) ?_ h
  intro z hz hhead
  rcases hz.behind_key hkey (hstop.of_head? hhead) with ⟨inner, hinner, -⟩ | ⟨-, hr | ⟨v, rfl⟩⟩
  · exact absurd hinner (hfield.ne_key inner)
  · exact hr
  · obtain ⟨v', hv⟩ := List.head?_eq_some_iff.mp hhead.symm
    exact absurd hv (hassign v')

theorem isPlaced_of_readTerm (hfield : ∃ name, IsField allowed name)
    (ih : ReadersStop allowed kind w depth) (hw : Stands w u t pos) (hlen : t.length < depth + 1)
    (hu : Opens allowed u) (h : readTerm allowed kind (depth + 1) pos slots t = .error e) :
    IsPlaced allowed w e := by
  have hkey : IsKey (before endsKey t) := isKey_before t
  have hafter := hw.key
  have hcut := congrArg List.length (before_append_onward endsKey t)
  rw [List.length_append] at hcut
  have hstop : BeginsIn endsKey (onward endsKey t) := beginsIn_onward endsKey t
  unfold readTerm at h
  dsimp only at h
  split at h
  · next hname =>
    cases h
    have hnil := Percent.eq_nil_of_decode hname
    rw [hnil, List.append_nil] at hafter
    rw [hnil]
    refine .form (hafter.breaksAt (BeginsGroup.of_opens hfield hu) ?_)
    -- A term begins with a character of its key, and here a key has ended.
    intro z hz hhead
    obtain ⟨xs, s, r, hs, rfl⟩ := hasLevel_of_opens hu hz
    obtain ⟨c, s, rfl, hc⟩ := exists_cons_of_terms hs
    rw [hstop c hhead.symm] at hc
    cases hc
  · next hname =>
    have hpos : 0 < (before endsKey t).length := by
      refine List.length_pos_iff.mpr fun hnil => hname ?_
      rw [hnil]
      rfl
    split at h
    · next inner hinner =>
      have hkind := Connective.key_of_ofKey? hinner
      split at h
      · next v hv =>
        rw [hv] at hafter hcut
        rw [List.length_cons] at hcut
        split at h
        · next e' he =>
          cases h
          have hopen : Opens allowed (u ++ before endsKey t ++ ['='] ++ ['(']) := by
            rw [List.append_assoc (u ++ _)]
            exact hu.inner hkey hkind
          exact ih.group (hafter.step (s := ['=']) (t := v)) (by omega) hopen he
        · next gs place rest hok =>
          exact isPlaced_behind_nested ih hafter (by omega) hu hkey hkind hok h
      · next hassign =>
        cases h
        refine .form (hafter.breaksAt (.of_connective hfield hu hkey hkind) ?_)
        intro z hz hhead
        rw [List.append_assoc] at hz
        obtain ⟨ys, g, r, -, rfl, -⟩ :=
          (hasLevel_of_opens hu hz).behind_connective hkey hkind (hstop.of_head? hhead)
        obtain ⟨v, hv⟩ := List.head?_eq_some_iff.mp hhead.symm
        exact hassign v hv
    · next hplain =>
      split at h
      · next hmem =>
        cases h
        obtain ⟨rfl, rfl⟩ := hw
        refine .unknown ?_ ?_ hmem (ofKey?_eq_none_iff.mp hplain)
        · rw [List.take_left]
          exact BeginsGroup.of_opens hfield hu
        · rw [List.drop_left]
      · next hmem =>
        have hnamed : IsField allowed (Percent.decode (before endsKey t)) :=
          ⟨hname, Decidable.of_not_not hmem, ofKey?_eq_none_iff.mp hplain⟩
        split at h
        · next v hv =>
          rw [hv] at hafter hcut
          rw [List.length_cons] at hcut
          exact isPlaced_behind_valued ih hafter (by omega) hu hkey hnamed h
        · next hassign =>
          exact isPlaced_behind_bare ih hafter (by omega) hu hkey hnamed hstop hassign h

/-- **The readers stop where the text breaks.** -/
theorem readersStop (hfield : ∃ name, IsField allowed name) (kind : Connective) (w : Text)
    (depth : Nat) : ReadersStop allowed kind w depth := by
  induction depth with
  | zero =>
    refine ⟨?_, ?_, ?_⟩
    · intro u t pos e _ hlen
      omega
    · intro u t pos slots e _ hlen
      omega
    · intro u s x t pos slots e _ hlen
      omega
  | succ depth ih =>
    exact ⟨isPlaced_of_readGroup hfield ih, isPlaced_of_readTerm hfield ih, isPlaced_of_readNext ih⟩

theorem isPlaced_of_read (hfield : ∃ name, IsField allowed name)
    (h : read allowed kind t = .error e) : IsPlaced allowed t e := by
  unfold read at h
  split at h
  · next e' he =>
    cases h
    refine (readersStop hfield kind t (enough t)).group (.start t) ?_ .outer he
    unfold enough
    omega
  · next gs place r hok =>
    split at h
    · cases h
    · next hr =>
      cases h
      obtain ⟨xs, s, rfl, hs, -⟩ := (reads_sound allowed kind _).1 hok
      have hplace := (readersMove allowed kind _).group hok
      rw [List.length_append] at hplace
      have hstands : Stands (s ++ r) s r place := ⟨rfl, by omega⟩
      refine .form (hstands.breaksAt ⟨[], xs, by simpa using hs⟩ ?_)
      -- What is a group already goes on with nothing.
      rintro z ⟨ys, hys⟩ hhead
      obtain ⟨-, hz⟩ := single_of_derives hs ys (s ++ z) z [] hys (by simp)
      subst hz
      exact hr (List.head?_eq_none_iff.mp hhead.symm)

/-- **The place that is told is exact.** If there is a field to ask for at all, a refusal of the
form at a place says that the text is begun like a group up to that place and no further. An unknown
field is told with a place up to which the text is begun like a group, and a key of that name stands
there which is neither a field nor a connective. -/
theorem read_breaks_at_place (hfield : ∃ name, IsField allowed name)
    (h : read allowed kind t = .error e) :
    (∀ place, e.family = .operatorSyntax → e.position = some place →
      BreaksAt allowed t place) ∧
    (∀ name place, e = .unknownField name (some place) →
      BeginsGroup allowed (t.take place) ∧
        Percent.decode (before endsKey (t.drop place)) = name ∧ name ∉ allowed ∧
          ∀ kind : Connective, name ≠ kind.key) := by
  cases isPlaced_of_read hfield h with
  | form hbreaks =>
    refine ⟨?_, ?_⟩
    · intro place _ hplace
      cases hplace
      exact hbreaks
    · intro name place heq
      cases heq
  | unknown hbegins hname hunknown hkind =>
    refine ⟨?_, ?_⟩
    · intro place hfamily
      cases hfamily
    · intro name place heq
      cases heq
      exact ⟨hbegins, hname, hunknown, hkind⟩
  | value hplace =>
    refine ⟨?_, ?_⟩
    · intro place _ hsome
      rw [hplace] at hsome
      cases hsome
    · intro name place heq
      rw [heq] at hplace
      cases hplace

/-- A group in a group, whose last bare field is followed by what begins no term. -/
def reopened : Text :=
  ['(', 'a', '|', '%', '6', 'F', 'r', '=', '(', 'a', '=', '(', '|', 'a', '(']

/-- A field that is not allowed, behind a value that holds a `(`. -/
def unlisted : Text :=
  ['(', '%', '6', 'F', 'r', '=', '(', 'a', '=', '(', '|', 'b', '=', '1', ')', ')']

theorem read_breaks_at_place_escaped :
    (∃ name, IsField [['a']] name) ∧
    read [['a']] .not reopened = .error (.group .not (.unexpected '(') 14) ∧
      BeginsGroup [['a']] (reopened.take 14) ∧ ¬ BeginsGroup [['a']] (reopened.take 15) ∧
    read [['a']] .not unlisted = .error (.unknownField ['b'] (some 11)) ∧
      BeginsGroup [['a']] (unlisted.take 11) ∧
      Percent.decode (before endsKey (unlisted.drop 11)) = ['b'] := by
  have hfield : ∃ name, IsField [['a']] name :=
    ⟨['a'], by decide, by decide, fun kind => by cases kind <;> decide⟩
  have hform : read [['a']] .not reopened = .error (.group .not (.unexpected '(') 14) := rfl
  have hunknown : read [['a']] .not unlisted = .error (.unknownField ['b'] (some 11)) := rfl
  obtain ⟨hbegins, hbreaks⟩ := (read_breaks_at_place hfield hform).1 14 rfl rfl
  obtain ⟨hfront, hname, -, -⟩ := (read_breaks_at_place hfield hunknown).2 ['b'] 11 rfl
  have hinside : ¬ (14 = reopened.length ∧ ¬ IsGroup [['a']] reopened) :=
    fun hend => absurd hend.1 (by decide)
  exact ⟨hfield, hform, hbegins, hbreaks.resolve_left hinside, hunknown, hfront, hname⟩

end Group
end TableService
