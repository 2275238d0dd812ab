import TableService.Proofs.UpdateFrame

/-!
# The rows a detail write reaches

An update or a deletion is asked for by one value of one column, and answers by one row. **It
reaches every row that is found under the value**, and the row of the answer is the first of them:

> a deletion takes all the rows that are found and leaves all others; an update changes all the
> rows that are found and leaves all others.

So it is a write of one row exactly where one row is found, which is certain if the lookup column is
a key of the table by itself: that holds of every column that was not configured, since it is the
only column of the primary key. Nothing asks it of a column that was configured.
-/

namespace TableService

namespace Keys

open Store

theorem mem_uniqueKeys_of_singleKey? {t : Table} {c : Column} (h : t.singleKey? = some c) :
    [c] ∈ uniqueKeys t := by
  unfold Table.singleKey? at h
  split at h
  · next hkey =>
    cases h
    rw [uniqueKeys, hkey]
    exact List.mem_append_left _ List.mem_cons_self
  · cases h

/-- **A lookup column that was not configured is a key by itself.** -/
theorem unique_of_unconfigured {t : Table} {policy : KeyPolicy} {op : Operation} {c : Column}
    (hpolicy : policy.configured op = none) (h : resolveOne t policy op = .ok (some c)) :
    [c] ∈ uniqueKeys t := by
  rw [resolveOne, hpolicy] at h
  exact mem_uniqueKeys_of_singleKey? (Except.ok.inj h)

end Keys

namespace Store

variable {s s' : Store} {values : Members} {pairs : List (Row × Row)} {p : Row × Row}

/-- What is found before an update is what is changed by it. -/
theorem IsFramed.perm_taken {c : Sql.Condition} (h : s.IsFramed c values pairs s') :
    ((pairs.filter fun p => takes (some c) p.1).map Prod.fst).Perm
      (s.rows.filter (takes (some c))) := by
  have hmap := List.filter_map (f := Prod.fst) (p := takes (some c)) (l := pairs)
  exact hmap ▸ h.before.filter (takes (some c))

/-- An update by an identifying value changes one row at most. -/
theorem IsFramed.taken_of_identifying (hs : s.IsLawful) {key : Column} {x : Value}
    (hkey : IsIdentifying s.table key x) {c : Sql.Condition} (hc : Service.equals key x = .ok c)
    (h : s.IsFramed c values pairs s') {others : List (Row × Row)}
    (htaken : (pairs.filter fun p => takes (some c) p.1) = p :: others) : others = [] := by
  have hperm := h.perm_taken
  have hmem : p.1 ∈ s.rows.filter (takes (some c)) := by
    refine hperm.mem_iff.mp ?_
    rw [htaken]
    exact List.mem_cons_self
  obtain ⟨r, hfound⟩ : ∃ r, s.rows.find? (takes (some c)) = some r :=
    Option.isSome_iff_exists.mp (List.find?_isSome.mpr ⟨p.1, List.mem_filter.mp hmem⟩)
  rw [Store.taken_of_identifying hs hkey hc hfound, htaken] at hperm
  have hlength := hperm.length_eq
  simpa using hlength

end Store

namespace Service

open Store

variable {v : Service} {s s' : Store} {r : Request} {a : Value}

theorem deleted_of_destroyRow (h : v.destroyRow s r = (.ok a, s')) :
    ∃ x c row others,
      v.lookupValue v.binding.keys.destroy r = .ok x ∧
      equals v.binding.keys.destroy x = .ok c ∧
      s.rows.filter (takes (some c)) = row :: others ∧
      s' = { s with rows := s.rows.filter fun q => !takes (some c) q } ∧
      Codec.decode v.binding.keys.destroy.type (row.cell v.binding.keys.destroy) = .ok a := by
  rcases v.destroyRow_cases s r with
    ⟨e, hrun⟩ | ⟨x, s'', -, -, hrun⟩ | ⟨x, row, s'', shown, hx, hdelete, hshown, hrun⟩
  · cases (Prod.mk.inj (hrun.symm.trans h)).1
  · cases (Prod.mk.inj (hrun.symm.trans h)).1
  · obtain ⟨hanswer, rfl⟩ := Prod.mk.inj (hrun.symm.trans h)
    cases hanswer
    obtain ⟨c, hc, hfirst, hafter⟩ := (deleted_of_delete hdelete).made
    rw [← List.head?_filter] at hfirst
    obtain ⟨others, hothers⟩ := List.head?_eq_some_iff.mp hfirst.symm
    exact ⟨x, c, row, others, hx, hc, hothers, hafter, hshown⟩

/-- **A detail write reaches every row that is found.** If a deletion answers, it removed the rows
whose lookup column is equal to the value of the path, of which there is at least one, and no other,
and the answer is the lookup value of the first. If an update answers, it changed these rows, of
which there is at least one, and no other, and the answer is the first of them as it is then. There
is no second one if the lookup column is a key by itself, and null was not looked up in it or is not
allowed there. -/
theorem detail_write_reaches_all_found (hs : s.IsLawful) (hnames : s.table.columnNames.Nodup)
    (htable : s.table = v.binding.table) :
    (∀ a s', v.perform s .destroy r = (.ok a, s') → ∃ x c row others,
      v.lookupValue v.binding.keys.destroy r = .ok x ∧
      equals v.binding.keys.destroy x = .ok c ∧
      s.rows.filter (takes (some c)) = row :: others ∧
      s' = { s with rows := s.rows.filter fun q => !takes (some c) q } ∧
      Codec.decode v.binding.keys.destroy.type (row.cell v.binding.keys.destroy) = .ok a ∧
      (IsIdentifying s.table v.binding.keys.destroy x → others = [])) ∧
    ∀ a s', v.perform s .update r = (.ok a, s') → ∃ x data c pairs before row others,
      v.lookupValue v.binding.keys.update r = .ok x ∧
      v.binding.schemas.update.validate r.body true = .ok data ∧
      equals v.binding.keys.update x = .ok c ∧
      s.IsFramed c data pairs s' ∧
      (pairs.filter fun p => takes (some c) p.1) = (before, row) :: others ∧
      v.rowAnswer row = .ok a ∧
      (IsIdentifying s.table v.binding.keys.update x → others = []) := by
  refine ⟨fun a s' h => ?_, fun a s' h => ?_⟩
  · obtain ⟨x, c, row, others, hx, hc, hothers, hafter, hanswer⟩ := deleted_of_destroyRow h
    refine ⟨x, c, row, others, hx, hc, hothers, hafter, hanswer, fun hkey => ?_⟩
    have hfound : s.rows.find? (takes (some c)) = some row := by
      rw [← List.head?_filter, hothers]
      rfl
    rw [taken_of_identifying hs hkey hc hfound] at hothers
    exact (List.cons.inj hothers).2.symm
  · obtain ⟨x, data, c, pairs, row, hx, hdata, hc, hframed, hfirst, hanswer⟩ :=
      isFramed_of_updateRow hs hnames htable h
    obtain ⟨⟨before, after⟩, hfound, rfl⟩ := Option.map_eq_some_iff.mp hfirst
    rw [← List.head?_filter] at hfound
    obtain ⟨others, hothers⟩ := List.head?_eq_some_iff.mp hfound
    exact ⟨x, data, c, pairs, before, after, others, hx, hdata, hc, hframed, hothers, hanswer,
      fun hkey => hframed.taken_of_identifying hs hkey hc hothers⟩

/-- A request that names the stamps with a text, of which there are two. -/
def unstamp : Request := ⟨[], [(['t'], .text ['a'])], .null⟩

/-- The stamps after those are deleted. -/
def unstamped : Store := { threeStamps with rows := [stampRow 2 ['b'] (.integer 6)] }

theorem detail_write_reaches_all_found_stamps :
    (threeStamps.IsLawful ∧ threeStamps.table.columnNames.Nodup ∧
      threeStamps.table = stampService.binding.table ∧
      stampService.perform threeStamps .destroy unstamp = (.ok (.text ['a']), unstamped)) ∧
    ∃ x c row others,
      stampService.lookupValue stampService.binding.keys.destroy unstamp = .ok x ∧
      equals stampService.binding.keys.destroy x = .ok c ∧
      threeStamps.rows.filter (takes (some c)) = row :: others ∧
      unstamped = { threeStamps with
        rows := threeStamps.rows.filter fun q => !takes (some c) q } ∧
      Codec.decode stampService.binding.keys.destroy.type
        (row.cell stampService.binding.keys.destroy) = .ok (.text ['a']) ∧
      (IsIdentifying threeStamps.table stampService.binding.keys.destroy x → others = []) := by
  have hnames : threeStamps.table.columnNames.Nodup := by decide
  have hrun : stampService.perform threeStamps .destroy unstamp
      = (.ok (.text ['a']), unstamped) := rfl
  exact ⟨⟨isLawful_threeStamps, hnames, rfl, hrun⟩,
    (detail_write_reaches_all_found isLawful_threeStamps hnames rfl).1 _ _ hrun⟩

/-- **A column is accepted for the lookup that finds two rows.** The deletion that answers with one
text removes the first and the third stamp, and the update that answers with the first stamp changes
the third one too. -/
theorem second_row_is_written :
    Binding.create stamps .standard stampOptions = .ok stampService.binding ∧
      threeStamps.IsLawful ∧
      stampService.perform threeStamps .destroy unstamp
        = (.ok (.text ['a']), { threeStamps with rows := [stampRow 2 ['b'] (.integer 6)] }) ∧
      stampService.perform threeStamps .update restamp
        = (.ok (.object [(['i', 'd'], .integer 1), (['t'], .text ['c'])]),
          { threeStamps with
            rows := [stampRow 1 ['c'] .null, stampRow 2 ['b'] (.integer 6),
              stampRow 3 ['c'] .null] }) :=
  ⟨rfl, isLawful_threeStamps, rfl, perform_restamp⟩

end Service
end TableService
