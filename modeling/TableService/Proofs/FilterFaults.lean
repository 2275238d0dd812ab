import TableService.Proofs.FilterForm
import TableService.Proofs.GroupFaults
import TableService.Proofs.JoinedParameters

/-!
# What is wrong with a filter

A request whose parameters are texts has a filter, or it is refused and the refusal says where to
look: at **a key of the request**, at **a place in the text of a group**, or at **a field that a
group names**. The one other thing that can happen is that a number has too many digits.

Parsing a filter also puts it together, and a filter that is put together by hand may have too many
or too few parts. That never happens here, not for the filter of a request and not for the parts
that are made on the way to it, some of which belong to no filter in the end.
-/

namespace TableService

/-! ## 1. Parts that fit -/

namespace Predicate

/-- Operands as their operator takes them pass the check of operator and operands. -/
theorem predicate?_draft {p : Predicate} (h : p.draft.IsWellFormed) :
    p.draft.predicate? = .ok p := by
  have hsome : ∀ {xs : List Operand}, 2 ≤ xs.length → ∃ y ys, xs = y :: ys := by
    intro xs hxs
    exact List.exists_cons_of_length_pos (by omega)
  cases p with
  | null holds => rfl
  | compare r x => cases r <;> rfl
  | pattern caseless negated x => cases caseless <;> cases negated <;> rfl
  | between negated low high => cases negated <;> rfl
  | among negated xs =>
    cases negated <;> (obtain ⟨y, ys, rfl⟩ := hsome h.1; rfl)
  | array test xs =>
    cases test <;> (obtain ⟨y, ys, rfl⟩ := hsome h.1; rfl)

end Predicate

namespace Filter

/-- Whether a filter can be put together by hand: every predicate and every group in it passes the
check of its parts. -/
inductive IsBuilt : Filter → Prop where
  | test {field : Text} {p : Predicate} (h : p.draft.predicate? = .ok p) : IsBuilt (.test field p)
  | group {kind : Connective} {parts : List Filter} {f : Filter} (h : group kind parts = .ok f)
      (hparts : ∀ g ∈ parts, IsBuilt g) : IsBuilt f

theorem IsBuilt.all {parts : List Filter} (hne : parts ≠ []) (h : ∀ g ∈ parts, g.IsBuilt) :
    (Filter.all parts).IsBuilt := by
  obtain ⟨g, gs, rfl⟩ := List.exists_cons_of_ne_nil hne
  exact @IsBuilt.group .and _ _ rfl h

theorem isBuilt_of_isWellFormed {f : Filter} (h : f.IsWellFormed) : f.IsBuilt := by
  induction h with
  | test hp => exact .test (Predicate.predicate?_draft hp)
  | merged hmerged _ ih =>
    apply IsBuilt.all _ ih
    rintro rfl
    exact absurd hmerged.1 (by simp)
  | all hne _ _ ih => exact IsBuilt.all hne ih
  | @any parts hne _ _ ih =>
    obtain ⟨g, gs, rfl⟩ := List.exists_cons_of_ne_nil hne
    exact @IsBuilt.group .or _ _ rfl ih
  | not _ ih => exact @IsBuilt.group .not [_] _ rfl (List.forall_mem_singleton.mpr ih)

theorem isBuilt_of_ofValues {field : Text} {raws : List Text} {f : Filter}
    (h : ofValues field raws = .ok f) : f.IsBuilt := by
  have hfilter : Group.fieldFilter? field raws = some f := by
    rw [← Slot.toOption_ofValues, h]
    rfl
  exact isBuilt_of_isWellFormed (Group.isWellFormed_of_fieldFilter? hfilter).1

/-- A group that is read, however deep it stands, is put together under any connective. -/
theorem isBuilt_of_readGroup {allowed : List Text} {kind : Connective} {depth pos next : Nat}
    {t r : Text} {fs : List Filter} (inner : Connective)
    (h : Group.readGroup allowed kind depth pos t = .ok (fs, next, r)) :
    (combine inner fs).IsBuilt := by
  obtain ⟨xs, s, -, hs, hfs⟩ := (Group.reads_sound allowed kind depth).1 h
  obtain ⟨hne, hfilled⟩ := Group.isFilled_of_derives hs
  have hlevel := Group.isLevel_of_filters? xs hfilled hfs
  have hgrouped := Group.isWellFormed_grouped inner (Group.ne_nil_of_filters? hne hfs) hlevel
  rw [Group.combine_eq_grouped]
  exact isBuilt_of_isWellFormed hgrouped.1

theorem isBuilt_of_parse {allowed : List Text} {ps : Params} {f : Filter}
    (h : parse allowed ps = .ok (some f)) : f.IsBuilt := by
  obtain ⟨parts, hparts, hf⟩ := parse_eq_ok.mp h
  cases parts with
  | nil => cases hf
  | cons part parts =>
    cases hf
    apply IsBuilt.all (List.cons_ne_nil _ _)
    intro g hg
    exact isBuilt_of_isWellFormed ((leafFields_sublist hparts).1 g hg)

/-- Whether all that the readers put together passes its check, be it a part of a filter in the end
or not: the predicate of a value, the values of a field, and a group that is read at some place. -/
structure ReadersFit (allowed : List Text) : Prop where
  value : ∀ {field raw p}, Predicate.read field raw = .ok p → p.draft.predicate? = .ok p
  values : ∀ {field raws f}, ofValues field raws = .ok f → f.IsBuilt
  group : ∀ {kind depth pos t fs next r},
    Group.readGroup allowed kind depth pos t = .ok (fs, next, r) →
      ∀ inner, (combine inner fs).IsBuilt

theorem readersFit (allowed : List Text) : ReadersFit allowed where
  value h := Predicate.predicate?_draft (Predicate.isWellFormed_of_read h)
  values h := isBuilt_of_ofValues h
  group h inner := isBuilt_of_readGroup inner h

end Filter

/-! ## 2. Where a fault is -/

namespace Params

/-- Whether everything that was sent is text. -/
def AreTexts (ps : Params) : Prop := ∀ key x, ps.Sent key x → ∃ t, x = .text t

theorem sent_of_mem_groupTexts {ps : Params} {kind : Connective} {x : Occurrence}
    (h : x ∈ Filter.groupTexts kind ps) : ps.Sent kind.key x := by
  unfold Filter.groupTexts at h
  split at h
  · cases h
  · cases h
  · next p _ hp =>
    obtain ⟨front, rest, rfl, -⟩ := List.lookup_eq_some_iff.mp hp
    exact ⟨p, by simp, h⟩

end Params

namespace Filter

/-- Whether a request has a value that is read as a predicate: it is sent for a field, or a group
that is sent gives it to a field. -/
inductive HasValue (allowed : List Text) (ps : Params) : Text → Prop where
  | sent {key value : Text} (h : ps.Sent key (.text value)) (hkey : key ∉ Params.reserved) :
      HasValue allowed ps value
  | given {kind : Connective} {t name value : Text} (h : ps.Sent kind.key (.text t))
      (hgives : Group.Gives allowed t name value) : HasValue allowed ps value

/-- Whether a fault is put down to something in a request: to one of its keys, to a place in the
text of a group, to a field that a group names, or to an operand with too many digits. -/
inductive IsAttributed (allowed : List Text) (ps : Params) : QueryFault → Prop where
  | key {key : Text} {e : QueryFault} (h : key ∈ ps.map Prod.fst) (htold : e.IsTold key none) :
      IsAttributed allowed ps e
  | group {kind : Connective} {t : Text} {place : Nat} {e : QueryFault}
      (h : ps.Sent kind.key (.text t)) (hplace : place ≤ t.length)
      (htold : e.IsTold kind.key (some place)) : IsAttributed allowed ps e
  | named {kind : Connective} {t name : Text} {place : Nat} {told : Option Nat} {e : QueryFault}
      (h : ps.Sent kind.key (.text t)) (hname : Group.Names allowed t place name)
      (hplace : told = none ∨ told = some place) (htold : e.IsTold name told) :
      IsAttributed allowed ps e
  | oversized {value token : Text} (h : HasValue allowed ps value)
      (htoken : Predicate.HasOperand value token) (hover : token.IsOversized) :
      IsAttributed allowed ps .oversizedInteger

variable {allowed : List Text} {ps : Params} {e : QueryFault}

theorem isAttributed_of_ofOccurrences {key : Text} {p : Parameter} (htexts : ps.AreTexts)
    (hmem : (key, p) ∈ ps) (hkey : key ∉ Params.reserved)
    (h : ofOccurrences key p.occurrences = .error e) : IsAttributed allowed ps e := by
  have hname : key ∈ ps.map Prod.fst := List.mem_map_of_mem hmem
  obtain ⟨values, hvalues⟩ : p.occurrences ∈ Set.range (List.map Occurrence.text) := by
    rw [Set.range_list_map]
    intro x hx
    obtain ⟨t, rfl⟩ := htexts key x ⟨p, hmem, hx⟩
    exact ⟨t, rfl⟩
  rw [← hvalues, ofOccurrences_map_text] at h
  rcases fault_of_ofValues h with rfl | ⟨raw, hraw, hread⟩
  · exact .key hname (QueryFault.isTold_of_refusal rfl rfl)
  · have hsent : ps.Sent key (.text raw) := ⟨p, hmem, hvalues ▸ List.mem_map_of_mem hraw⟩
    rcases Predicate.isFault_of_read hread with
      ⟨hrefusal, hfield, hplace⟩ | ⟨rfl, token, htoken, hover⟩
    · exact .key hname (hplace ▸ QueryFault.isTold_of_refusal hrefusal hfield)
    · exact .oversized (.sent hsent hkey) htoken hover

theorem isAttributed_of_ofFields (htexts : ps.AreTexts) : ∀ {qs : Params} {e : QueryFault},
    (∀ q ∈ qs, q ∈ ps) → ofFields allowed qs = .error e → IsAttributed allowed ps e
  | [], _, _, h => by
    cases h
  | (key, p) :: qs, e, hqs, h => by
    obtain ⟨hmem, hrest⟩ := List.forall_mem_cons.mp hqs
    rw [ofFields] at h
    split at h
    · exact isAttributed_of_ofFields htexts hrest h
    · next hkey =>
      split at h
      · cases h
        exact .key (List.mem_map_of_mem hmem) (QueryFault.isTold_of_refusal rfl rfl)
      · split at h
        · next e' he =>
          cases h
          exact isAttributed_of_ofOccurrences htexts hmem hkey he
        · split at h
          · next e' he =>
            cases h
            exact isAttributed_of_ofFields htexts hrest he
          · cases h

/-- What is wrong with a group of a request is put down to its text. -/
theorem isAttributed_of_isFault {kind : Connective} {t : Text} (hsent : ps.Sent kind.key (.text t))
    (h : Group.IsFault allowed kind t e) : IsAttributed allowed ps e := by
  cases h with
  | form hplace => exact .group hsent hplace (QueryFault.isTold_of_refusal rfl rfl)
  | unknown hname => exact .named hsent hname (.inr rfl) (QueryFault.isTold_of_refusal rfl rfl)
  | value hname hrefusal hfield hplace =>
    exact .named hsent hname (.inl hplace) (QueryFault.isTold_of_refusal hrefusal hfield)
  | oversized hgives htoken hover => exact .oversized (.given hsent hgives) htoken hover

theorem isAttributed_of_ofGroups {kind : Connective} (htexts : ps.AreTexts) :
    ∀ {xs : List Occurrence} {e : QueryFault}, (∀ x ∈ xs, ps.Sent kind.key x) →
      ofGroups allowed kind xs = .error e → IsAttributed allowed ps e
  | [], _, _, h => by
    cases h
  | .other v :: xs, e, hxs, _ => by
    obtain ⟨t, ht⟩ := htexts _ _ (hxs _ List.mem_cons_self)
    cases ht
  | .text t :: xs, e, hxs, h => by
    obtain ⟨hsent, hrest⟩ := List.forall_mem_cons.mp hxs
    rw [ofGroups] at h
    split at h
    · next e' he =>
      cases h
      exact isAttributed_of_isFault hsent (Group.isFault_of_read he)
    · split at h
      · next e' he =>
        cases h
        exact isAttributed_of_ofGroups htexts hrest he
      · cases h

theorem isAttributed_of_ofConnectives (htexts : ps.AreTexts) :
    ∀ {ks : List Connective} {e : QueryFault},
      ofConnectives allowed ps ks = .error e → IsAttributed allowed ps e
  | [], _, h => by
    cases h
  | k :: ks, e, h => by
    rw [ofConnectives] at h
    split at h
    · next e' he =>
      cases h
      exact isAttributed_of_ofGroups htexts (fun _ => Params.sent_of_mem_groupTexts) he
    · split at h
      · next e' he =>
        cases h
        exact isAttributed_of_ofConnectives htexts he
      · cases h

/-- **Every fault of a filter is put down to something in the request**, and nothing that is put
together on the way has the wrong number of parts. -/
theorem fault_attributed (htexts : ps.AreTexts) :
    (∀ e, parse allowed ps = .error e → IsAttributed allowed ps e) ∧
      ReadersFit allowed ∧ ∀ f, parse allowed ps = .ok (some f) → f.IsBuilt := by
  refine ⟨?_, readersFit allowed, ?_⟩
  · intro e h
    unfold parse at h
    split at h
    · next e' he =>
      cases h
      exact isAttributed_of_ofFields htexts (fun _ => id) he
    · split at h
      · next e' he =>
        cases h
        exact isAttributed_of_ofConnectives htexts he
      · split at h <;> cases h
  · intro f h
    exact isBuilt_of_parse h

/-- A request whose group names a field that nobody may filter by, inside another group. -/
def misnamed : Params := [
  (['a'], .many [.text ['>', '1'], .text ['x', ',', 'y']]),
  (['n', 'o', 't'], .one (.text
    ['(', 'a', '=', '1', '|', 'o', 'r', '=', '(', 'b', '|', 'c', '=', '2', ')', ')']))]

theorem fault_attributed_misnamed :
    misnamed.AreTexts ∧
      parse [['a'], ['b']] misnamed = .error (.unknownField ['c'] (some 11)) ∧
      IsAttributed [['a'], ['b']] misnamed (.unknownField ['c'] (some 11)) ∧
      ReadersFit [['a'], ['b']] := by
  have htexts : misnamed.AreTexts := by
    rintro key x ⟨p, hp, hx⟩
    simp only [misnamed, List.mem_cons, List.not_mem_nil, or_false, Prod.mk.injEq] at hp
    rcases hp with ⟨-, rfl⟩ | ⟨-, rfl⟩
    · simp only [Parameter.occurrences, List.mem_cons, List.not_mem_nil, or_false] at hx
      rcases hx with rfl | rfl <;> exact ⟨_, rfl⟩
    · exact ⟨_, List.mem_singleton.mp hx⟩
  have hparse : parse [['a'], ['b']] misnamed = .error (.unknownField ['c'] (some 11)) := rfl
  obtain ⟨hfault, hfit, -⟩ := @fault_attributed [['a'], ['b']] misnamed htexts
  exact ⟨htexts, hparse, hfault _ hparse, hfit⟩

end Filter
end TableService
