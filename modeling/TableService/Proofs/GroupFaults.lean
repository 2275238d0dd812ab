import TableService.Proofs.GroupReading
import TableService.Proofs.ValueFaults

/-!
# What is wrong with a group

A group is refused where its reader stands, or for a field that it names. To say what it names
without the reader, the grammar is read up to a place: a text **opens** a group to a place where a
term may stand if everything in front of it is whole terms and the beginnings of groups that are
still open. What stands there up to the next stop is a name, and what follows its `=` is a value.

The readers keep one fact about the text in front of them: **it opens the group, and its length is
the place that they count**. So a place that is told lies in the text, and a field that is told is
named there.
-/

namespace TableService
namespace Group

/-! ## 1. What a group names -/

/-- Whether a text opens a group to a place where a term may stand. -/
inductive Opens (allowed : List Text) : Text → Prop where
  | outer : Opens allowed ['(']
  | inner {u key : Text} {kind : Connective} (h : Opens allowed u) (hkey : IsKey key)
      (hkind : Percent.decode key = kind.key) : Opens allowed (u ++ key ++ ['=', '('])
  | next {u s : Text} {x : Term} (h : Opens allowed u) (hx : Derives allowed (.term x) s) :
      Opens allowed (u ++ s ++ ['|'])

/-- Whether a group names a field at a place. -/
def Names (allowed : List Text) (t : Text) (place : Nat) (name : Text) : Prop :=
  ∃ u key r, t = u ++ key ++ r ∧ Opens allowed u ∧ u.length = place ∧ IsKey key ∧
    Percent.decode key = name ∧ BeginsIn endsKey r

/-- Whether a group gives a field a value. -/
def Gives (allowed : List Text) (t name value : Text) : Prop :=
  ∃ u key written r, t = u ++ key ++ '=' :: written ++ r ∧ Opens allowed u ∧ IsKey key ∧
    Percent.decode key = name ∧ IsValue written ∧ Percent.decode written = value ∧
    BeginsIn endsValue r

/-- What may be wrong with a group. -/
inductive IsFault (allowed : List Text) (kind : Connective) (t : Text) : QueryFault → Prop where
  | form {fault : GroupFault} {place : Nat} (h : place ≤ t.length) :
      IsFault allowed kind t (.group kind fault place)
  | unknown {name : Text} {place : Nat} (h : Names allowed t place name) :
      IsFault allowed kind t (.unknownField name (some place))
  | value {name : Text} {place : Nat} {e : QueryFault} (h : Names allowed t place name)
      (hrefusal : e.isRefusal = true) (hfield : e.field = some name) (hplace : e.position = none) :
      IsFault allowed kind t e
  | oversized {name value token : Text} (h : Gives allowed t name value)
      (htoken : Predicate.HasOperand value token) (hover : token.IsOversized) :
      IsFault allowed kind t .oversizedInteger

variable {allowed : List Text} {kind : Connective} {slots : List Slot} {depth pos next : Nat}
  {fs : List Filter} {t r u : Text} {e : QueryFault}

/-! ## 2. What slots hold -/

/-- Whether a slot holds what a group gives: its field is named, and its values are given. A value
that is not written is empty. -/
def IsGiven (allowed : List Text) (t : Text) : Slot → Prop
  | .values name raws => (∃ place, Names allowed t place name) ∧
      ∀ raw ∈ raws, raw = [] ∨ Gives allowed t name raw
  | .nested _ => True

theorem isGiven_addValue {name value : Text} {place : Nat} (hname : Names allowed t place name)
    (hvalue : value = [] ∨ Gives allowed t name value) :
    ∀ {slots : List Slot}, (∀ s ∈ slots, IsGiven allowed t s) →
      ∀ s ∈ Slot.addValue name value slots, IsGiven allowed t s
  | [], _ => by
    intro s hs
    rw [List.mem_singleton.mp hs]
    exact ⟨⟨place, hname⟩, List.forall_mem_singleton.mpr hvalue⟩
  | .nested f :: slots, h => by
    obtain ⟨hf, hslots⟩ := List.forall_mem_cons.mp h
    exact List.forall_mem_cons.mpr ⟨hf, isGiven_addValue hname hvalue hslots⟩
  | .values other raws :: slots, h => by
    obtain ⟨⟨hother, hraws⟩, hslots⟩ := List.forall_mem_cons.mp h
    rw [Slot.addValue]
    split
    · next heq =>
      subst heq
      refine List.forall_mem_cons.mpr ⟨⟨hother, ?_⟩, hslots⟩
      intro raw hraw
      rcases List.mem_append.mp hraw with hraw | hraw
      · exact hraws raw hraw
      · rw [List.mem_singleton.mp hraw]
        exact hvalue
    · exact List.forall_mem_cons.mpr ⟨⟨hother, hraws⟩, isGiven_addValue hname hvalue hslots⟩

/-- What is wrong with a slot that holds what a group gives is wrong with the group. -/
theorem isFault_of_ofValues {name : Text} {raws : List Text}
    (h : IsGiven allowed t (.values name raws)) (he : Filter.ofValues name raws = .error e) :
    IsFault allowed kind t e := by
  obtain ⟨⟨place, hname⟩, hraws⟩ := h
  rcases Filter.fault_of_ofValues he with rfl | ⟨raw, hraw, hfault⟩
  · exact .value hname rfl rfl rfl
  · rcases Predicate.isFault_of_read hfault with
      ⟨hrefusal, hfield, hplace⟩ | ⟨rfl, token, htoken, hover⟩
    · exact .value hname hrefusal hfield hplace
    · rcases hraws raw hraw with rfl | hgives
      -- An empty value is a null test, and always read.
      · cases hfault
      · exact .oversized hgives htoken hover

theorem isFault_of_close : ∀ {slots : List Slot} {e : QueryFault},
    (∀ s ∈ slots, IsGiven allowed t s) → Slot.close slots = .error e → IsFault allowed kind t e
  | [], _, _, h => by
    cases h
  | .nested f :: slots, e, hslots, h => by
    obtain ⟨-, hslots⟩ := List.forall_mem_cons.mp hslots
    rw [Slot.close] at h
    split at h
    · next e' he =>
      cases h
      exact isFault_of_close hslots he
    · cases h
  | .values name raws :: slots, e, hslots, h => by
    obtain ⟨hslot, hslots⟩ := List.forall_mem_cons.mp hslots
    rw [Slot.close] at h
    split at h
    · next e' he =>
      cases h
      exact isFault_of_ofValues hslot he
    · split at h
      · next e' he =>
        cases h
        exact isFault_of_close hslots he
      · cases h

/-! ## 3. Places -/

/-- Whether a reader stands at a place of a text, with what it has read behind it and the rest in
front. -/
structure Stands (w u t : Text) (pos : Nat) : Prop where
  text : w = u ++ t
  place : u.length = pos

namespace Stands

variable {w u s t : Text} {pos : Nat}

theorem start (t : Text) : Stands t [] t 0 := ⟨rfl, rfl⟩

theorem step (h : Stands w u (s ++ t) pos) : Stands w (u ++ s) t (pos + s.length) where
  text := by rw [h.text, List.append_assoc]
  place := by rw [List.length_append, h.place]

/-- A reader behind a key, its `=` and what stands there. -/
theorem behind {key : Text} {next : Nat} (h : Stands w (u ++ key) ('=' :: (s ++ t)) pos)
    (hnext : next + t.length = pos + ('=' :: (s ++ t)).length) :
    Stands w (u ++ (key ++ '=' :: s)) t next where
  text := by simp [h.text]
  place := by
    have hplace := h.place
    simp only [List.length_append, List.length_cons] at hplace hnext ⊢
    omega

theorem le (h : Stands w u t pos) : pos ≤ w.length := by
  rw [h.text, List.length_append, h.place]
  omega

end Stands

/-- Whether the readers of a depth move on by what they take. -/
structure ReadersMove (allowed : List Text) (kind : Connective) (depth : Nat) : Prop where
  group : ∀ {pos t next fs r}, readGroup allowed kind depth pos t = .ok (fs, next, r) →
    next + r.length = pos + t.length
  term : ∀ {pos slots t next fs r}, readTerm allowed kind depth pos slots t = .ok (fs, next, r) →
    next + r.length = pos + t.length
  next : ∀ {pos slots t next fs r}, readNext allowed kind depth pos slots t = .ok (fs, next, r) →
    next + r.length = pos + t.length

theorem place_of_readGroup (ih : ReadersMove allowed kind depth)
    (h : readGroup allowed kind (depth + 1) pos t = .ok (fs, next, r)) :
    next + r.length = pos + t.length := by
  unfold readGroup at h
  split at h
  · cases h
  · have hplace := ih.term h
    simp only [List.length_cons]
    omega
  · cases h

theorem place_of_readNext (ih : ReadersMove allowed kind depth)
    (h : readNext allowed kind (depth + 1) pos slots t = .ok (fs, next, r)) :
    next + r.length = pos + t.length := by
  unfold readNext at h
  split at h
  · have hplace := ih.term h
    simp only [List.length_cons]
    omega
  · split at h
    · cases h
    · cases h
      simp only [List.length_cons]
      omega
  · cases h
  · cases h

theorem place_of_readTerm (ih : ReadersMove allowed kind depth)
    (h : readTerm allowed kind (depth + 1) pos slots t = .ok (fs, next, r)) :
    next + r.length = pos + t.length := by
  have hcut := congrArg List.length (before_append_onward endsKey t)
  rw [List.length_append] at hcut
  unfold readTerm at h
  dsimp only at h
  split at h
  · cases h
  · split at h
    · split at h
      · next v hv =>
        rw [hv, List.length_cons] at hcut
        split at h
        · cases h
        · next gs place rest hok =>
          have hinner := ih.group hok
          have hplace := ih.next h
          omega
      · cases h
    · split at h
      · cases h
      · split at h
        · next v hv =>
          have hvalue := congrArg List.length (before_append_onward endsValue v)
          rw [List.length_append] at hvalue
          rw [hv, List.length_cons] at hcut
          have hplace := ih.next h
          omega
        · have hplace := ih.next h
          omega

theorem readersMove (allowed : List Text) (kind : Connective) (depth : Nat) :
    ReadersMove allowed kind depth := by
  induction depth with
  | zero =>
    refine ⟨?_, ?_, ?_⟩
    · intro pos t next fs r h
      unfold readGroup at h
      cases h
    · intro pos slots t next fs r h
      unfold readTerm at h
      cases h
    · intro pos slots t next fs r h
      unfold readNext at h
      cases h
  | succ depth ih => exact ⟨place_of_readGroup ih, place_of_readTerm ih, place_of_readNext ih⟩

/-! ## 4. What the readers refuse -/

theorem beginsIn_onward (stop : Char → Bool) (t : Text) : BeginsIn stop (onward stop t) := by
  intro c hc
  obtain ⟨r, hr⟩ := List.head?_eq_some_iff.mp hc
  exact stop_of_onward_eq_cons hr

variable {w s : Text} {x : Term}

/-- A reader of a term stands behind its name next. -/
theorem Stands.key (h : Stands w u t pos) :
    Stands w (u ++ before endsKey t) (onward endsKey t) (pos + (before endsKey t).length) := by
  apply Stands.step
  rw [before_append_onward]
  exact h

/-- Where a term may stand, what stands up to the next stop is named. -/
theorem names_of_stands (h : Stands w u t pos) (hu : Opens allowed u) :
    Names allowed w pos (Percent.decode (before endsKey t)) :=
  ⟨u, before endsKey t, onward endsKey t, h.key.text, hu, h.place, isKey_before t, rfl,
    beginsIn_onward endsKey t⟩

/-- What stands behind the `=` of a name is given to it. -/
theorem gives_of_stands {key v : Text} (h : Stands w (u ++ key) ('=' :: v) pos)
    (hu : Opens allowed u) (hkey : IsKey key) :
    Gives allowed w (Percent.decode key) (Percent.decode (before endsValue v)) := by
  refine ⟨u, key, before endsValue v, onward endsValue v, ?_, hu, hkey, rfl, isValue_before v, rfl,
    beginsIn_onward endsValue v⟩
  simp [h.text, before_append_onward]

/-- Whether what the readers of a depth refuse is wrong with any text in which they stand. -/
structure ReadersBlame (allowed : List Text) (kind : Connective) (w : Text) (depth : Nat) :
    Prop where
  group : ∀ {u t pos e}, Stands w u t pos → Opens allowed (u ++ ['(']) →
    readGroup allowed kind depth pos t = .error e → IsFault allowed kind w e
  term : ∀ {u t pos slots e}, Stands w u t pos → Opens allowed u →
    (∀ s ∈ slots, IsGiven allowed w s) → readTerm allowed kind depth pos slots t = .error e →
      IsFault allowed kind w e
  next : ∀ {u s x t pos slots e}, Stands w (u ++ s) t pos → Opens allowed u →
    Derives allowed (.term x) s → (∀ s ∈ slots, IsGiven allowed w s) →
      readNext allowed kind depth pos slots t = .error e → IsFault allowed kind w e

theorem isFault_of_readGroup (ih : ReadersBlame allowed kind w depth)
    (hw : Stands w u t pos) (hu : Opens allowed (u ++ ['(']))
    (h : readGroup allowed kind (depth + 1) pos t = .error e) : IsFault allowed kind w e := by
  unfold readGroup at h
  split at h
  · next v =>
    cases h
    exact .form (hw.step (s := ['(']) (t := ')' :: v)).le
  · next v _ => exact ih.term (hw.step (s := ['(']) (t := v)) hu (by simp) h
  · cases h
    exact .form hw.le

theorem isFault_of_readNext (ih : ReadersBlame allowed kind w depth)
    (hw : Stands w (u ++ s) t pos) (hu : Opens allowed u) (hx : Derives allowed (.term x) s)
    (hslots : ∀ s ∈ slots, IsGiven allowed w s)
    (h : readNext allowed kind (depth + 1) pos slots t = .error e) : IsFault allowed kind w e := by
  unfold readNext at h
  split at h
  · next v => exact ih.term (hw.step (s := ['|']) (t := v)) (hu.next hx) hslots h
  · split at h
    · next e' he =>
      cases h
      exact isFault_of_close hslots he
    · cases h
  · cases h
    exact .form hw.le
  · cases h
    exact .form hw.le

theorem isFault_of_readTerm (ih : ReadersBlame allowed kind w depth)
    (hw : Stands w u t pos) (hu : Opens allowed u) (hslots : ∀ s ∈ slots, IsGiven allowed w s)
    (h : readTerm allowed kind (depth + 1) pos slots t = .error e) : IsFault allowed kind w e := by
  have hkey : IsKey (before endsKey t) := isKey_before t
  have hafter := hw.key
  have hnames := names_of_stands hw hu
  unfold readTerm at h
  dsimp only at h
  split at h
  · cases h
    exact .form hafter.le
  · next hname =>
    split at h
    · next inner hinner =>
      have hkind := Connective.key_of_ofKey? hinner
      split at h
      · next v hv =>
        rw [hv] at hafter
        have hopen : Opens allowed (u ++ before endsKey t ++ ['='] ++ ['(']) := by
          rw [List.append_assoc (u ++ _)]
          exact hu.inner hkey hkind
        split at h
        · next e' he =>
          cases h
          exact ih.group (hafter.step (s := ['=']) (t := v)) hopen he
        · next gs place rest hok =>
          -- The group that was read is a term, and the reader stands behind it.
          obtain ⟨xs, s, rfl, hs, -⟩ := (reads_sound allowed kind depth).1 hok
          have hplace := (readersMove allowed kind depth).group hok
          have hbehind : Stands w (u ++ (before endsKey t ++ '=' :: s)) rest place := by
            apply hafter.behind
            rw [hplace, List.length_cons]
            omega
          refine ih.next hbehind hu (.nested hkey hkind hs) ?_ h
          intro slot hslot
          rcases List.mem_append.mp hslot with hslot | hslot
          · exact hslots slot hslot
          · rw [List.mem_singleton.mp hslot]
            trivial
      · cases h
        exact .form hafter.le
    · next hplain =>
      split at h
      · cases h
        exact .unknown hnames
      · next hmem =>
        have hfield : IsField allowed (Percent.decode (before endsKey t)) :=
          ⟨hname, Decidable.of_not_not hmem, ofKey?_eq_none_iff.mp hplain⟩
        split at h
        · next v hv =>
          rw [hv] at hafter
          have hgives := gives_of_stands hafter hu hkey
          have hcut := before_append_onward endsValue v
          rw [← hcut] at hafter
          have hbehind : Stands w (u ++ (before endsKey t ++ '=' :: before endsValue v))
              (onward endsValue v)
              (pos + (before endsKey t).length + 1 + (before endsValue v).length) := by
            apply hafter.behind
            simp only [List.length_append, List.length_cons]
            omega
          exact ih.next hbehind hu (.valued hkey hfield (isValue_before v))
            (isGiven_addValue hnames (.inr hgives) hslots) h
        · exact ih.next hafter hu (.bare hkey hfield)
            (isGiven_addValue hnames (.inl rfl) hslots) h

/-- **What the readers refuse is wrong with the text.** -/
theorem readersBlame (allowed : List Text) (kind : Connective) (w : Text) (depth : Nat) :
    ReadersBlame allowed kind w depth := by
  induction depth with
  | zero =>
    refine ⟨?_, ?_, ?_⟩
    · intro u t pos e hw _ h
      unfold readGroup at h
      cases h
      exact .form hw.le
    · intro u t pos slots e hw _ _ h
      unfold readTerm at h
      cases h
      exact .form hw.le
    · intro u s x t pos slots e hw _ _ _ h
      unfold readNext at h
      cases h
      exact .form hw.le
  | succ depth ih => exact ⟨isFault_of_readGroup ih, isFault_of_readTerm ih, isFault_of_readNext ih⟩

/-- **What is wrong with a group that is not read.** -/
theorem isFault_of_read (h : read allowed kind t = .error e) : IsFault allowed kind t e := by
  unfold read at h
  split at h
  · next e' he =>
    cases h
    exact (readersBlame allowed kind t (enough t)).group (.start t) .outer he
  · next gs place rest hok =>
    split at h
    · cases h
    · cases h
      have hplace := (readersMove allowed kind (enough t)).group hok
      apply IsFault.form
      omega

end Group
end TableService
