import TableService.Resource.Perform
import TableService.Proofs.Bindings
import TableService.Proofs.StoreWrites

/-!
# Failed requests and the store

A request that fails leaves the store as it was, **with one exception**: a row that was written is
read back and validated by the schema that shows it, and if the schema refuses it, the answer is
that refusal although the row stays written. It takes a schema made by hand, since it has to ask
for something that the table does not keep.

So the lemmas on the operations that write have two outcomes, the old store or `Refused`, and for
all others there is only the old store.
-/

namespace TableService
namespace Service

open Store

variable {v : Service} {s s' : Store} {r : Request} {e : Problem}

/-- A request whose write was carried out, while the row that was read back is refused by the schema
that shows it: the problem is that of the schema, and the store is the one after the write. -/
inductive Refused (v : Service) (s : Store) (r : Request) : Operation → Problem → Store → Prop where
  | create {values shown : Members} {row : Row} {e : Problem} {s' : Store}
    (body : v.bodyValues v.binding.schemas.create r = .ok values)
    (written : s.insert values = .ok (row, s'))
    (read : row.values v.binding.table.columns = .ok shown)
    (refused : v.binding.schemas.create.validate
      (.object (shown.filter fun (name, _) => name ∈ v.binding.schemas.create.fieldNames)) false
        = .error e) : Refused v s r .create e s'
  | update {x : Value} {values shown : Members} {columns : List Column} {row : Row} {e : Problem}
    {s' : Store} (change : v.changeFor r = .ok (x, values, columns))
    (written : s.update (equals v.binding.keys.update x) values = .ok (some row, s'))
    (read : row.values columns = .ok shown)
    (refused : v.binding.schemas.retrieve.validate (.object shown) false = .error e) :
    Refused v s r .update e s'

/-! ## 1. What an operation that writes can do -/

theorem createRow_cases (v : Service) (s : Store) (r : Request) :
    (∃ e, v.createRow s r = (.error e, s)) ∨
      ∃ values row s' shown, v.bodyValues v.binding.schemas.create r = .ok values ∧
        s.insert values = .ok (row, s') ∧ row.values v.binding.table.columns = .ok shown ∧
        v.createRow s r = (present v.binding.schemas.create
          (shown.filter fun (name, _) => name ∈ v.binding.schemas.create.fieldNames), s') := by
  simp only [createRow]
  split
  · exact .inl ⟨_, rfl⟩
  · next values hbody =>
    split
    · exact .inl ⟨_, rfl⟩
    · next row after hinsert =>
      split
      · exact .inl ⟨_, rfl⟩
      · next shown hread => exact .inr ⟨values, row, after, shown, hbody, hinsert, hread, rfl⟩

theorem updateRow_cases (v : Service) (s : Store) (r : Request) :
    (∃ e, v.updateRow s r = (.error e, s)) ∨
      (∃ x values columns s', v.changeFor r = .ok (x, values, columns) ∧
        s.update (equals v.binding.keys.update x) values = .ok (none, s') ∧
        v.updateRow s r = (.error (v.notFound v.binding.keys.update x), s')) ∨
      ∃ x values columns row s' shown, v.changeFor r = .ok (x, values, columns) ∧
        s.update (equals v.binding.keys.update x) values = .ok (some row, s') ∧
        row.values columns = .ok shown ∧
        v.updateRow s r = (present v.binding.schemas.retrieve shown, s') := by
  simp only [updateRow]
  split
  · exact .inl ⟨_, rfl⟩
  · next x values columns hchange =>
    split
    · exact .inl ⟨_, rfl⟩
    · next after hupdate => exact .inr (.inl ⟨x, values, columns, after, hchange, hupdate, rfl⟩)
    · next row after hupdate =>
      split
      · exact .inl ⟨_, rfl⟩
      · next shown hread =>
        exact .inr (.inr ⟨x, values, columns, row, after, shown, hchange, hupdate, hread, rfl⟩)

theorem destroyRow_cases (v : Service) (s : Store) (r : Request) :
    (∃ e, v.destroyRow s r = (.error e, s)) ∨
      (∃ x s', v.lookupValue v.binding.keys.destroy r = .ok x ∧
        s.delete (equals v.binding.keys.destroy x) = .ok (none, s') ∧
        v.destroyRow s r = (.error (v.notFound v.binding.keys.destroy x), s')) ∨
      ∃ x row s' key, v.lookupValue v.binding.keys.destroy r = .ok x ∧
        s.delete (equals v.binding.keys.destroy x) = .ok (some row, s') ∧
        Codec.decode v.binding.keys.destroy.type (row.cell v.binding.keys.destroy) = .ok key ∧
        v.destroyRow s r = (.ok key, s') := by
  simp only [destroyRow]
  split
  · exact .inl ⟨_, rfl⟩
  · next x hx =>
    split
    · exact .inl ⟨_, rfl⟩
    · next after hdelete => exact .inr (.inl ⟨x, after, hx, hdelete, rfl⟩)
    · next row after hdelete =>
      split
      · exact .inl ⟨_, rfl⟩
      · next key hkey => exact .inr (.inr ⟨x, row, after, key, hx, hdelete, hkey, rfl⟩)

/-! ## 2. Failures -/

theorem createRow_error (h : v.createRow s r = (.error e, s')) :
    s' = s ∨ v.Refused s r .create e s' := by
  rcases v.createRow_cases s r with ⟨_, hrun⟩ | ⟨_, _, _, _, hbody, hinsert, hread, hrun⟩
  · exact .inl (Prod.mk.inj (h.symm.trans hrun)).2
  · obtain ⟨hpresent, rfl⟩ := Prod.mk.inj (hrun.symm.trans h)
    exact .inr (.create hbody hinsert hread (Outcome.map_eq_error.mp hpresent))

theorem updateRow_error (hs : s.Ordered) (h : v.updateRow s r = (.error e, s')) :
    s' = s ∨ v.Refused s r .update e s' := by
  rcases v.updateRow_cases s r with
    ⟨_, hrun⟩ | ⟨_, _, _, _, _, hupdate, hrun⟩ | ⟨_, _, _, _, _, _, hchange, hupdate, hread, hrun⟩
  · exact .inl (Prod.mk.inj (h.symm.trans hrun)).2
  · obtain ⟨-, rfl⟩ := Prod.mk.inj (hrun.symm.trans h)
    exact .inl (eq_of_updated_none hs (updated_of_update hupdate))
  · obtain ⟨hpresent, rfl⟩ := Prod.mk.inj (hrun.symm.trans h)
    exact .inr (.update hchange hupdate hread (Outcome.map_eq_error.mp hpresent))

theorem destroyRow_error (h : v.destroyRow s r = (.error e, s')) : s' = s := by
  rcases v.destroyRow_cases s r with
    ⟨_, hrun⟩ | ⟨_, _, _, hdelete, hrun⟩ | ⟨_, _, _, _, _, _, _, hrun⟩
  · exact (Prod.mk.inj (h.symm.trans hrun)).2
  · obtain ⟨-, rfl⟩ := Prod.mk.inj (hrun.symm.trans h)
    exact eq_of_deleted_none (deleted_of_delete hdelete)
  · cases (Prod.mk.inj (hrun.symm.trans h)).1

theorem perform_error (hs : s.Ordered) {op : Operation} (h : v.perform s op r = (.error e, s')) :
    s' = s ∨ v.Refused s r op e s' := by
  cases op with
  | list => exact .inl (Prod.mk.inj h).2.symm
  | create => exact createRow_error h
  | retrieve => exact .inl (Prod.mk.inj h).2.symm
  | update => exact updateRow_error hs h
  | destroy => exact .inl (destroyRow_error h)
  | search => exact .inl (Prod.mk.inj h).2.symm

theorem reachable_perform (hs : s.Reachable) (op : Operation) : (v.perform s op r).2.Reachable := by
  cases op with
  | list => exact hs
  | create =>
    rw [perform]
    rcases v.createRow_cases s r with ⟨_, hrun⟩ | ⟨_, _, _, _, _, hinsert, _, hrun⟩ <;> rw [hrun]
    · exact hs
    · exact hs.inserted hinsert
  | retrieve => exact hs
  | update =>
    rw [perform]
    rcases v.updateRow_cases s r with
      ⟨_, hrun⟩ | ⟨_, _, _, _, _, hupdate, hrun⟩ | ⟨_, _, _, _, _, _, _, hupdate, _, hrun⟩ <;>
      rw [hrun]
    · exact hs
    · exact hs.updated hupdate
    · exact hs.updated hupdate
  | destroy =>
    rw [perform]
    rcases v.destroyRow_cases s r with
      ⟨_, hrun⟩ | ⟨_, _, _, hdelete, hrun⟩ | ⟨_, _, _, _, _, hdelete, _, hrun⟩ <;> rw [hrun]
    · exact hs
    · exact hs.deleted hdelete
    · exact hs.deleted hdelete
  | search => exact hs

/-- A dispatch either leaves the store alone or is what the operation does as it is built in. -/
theorem dispatch_cases (v : Service) (s : Store) (op : Operation) (r : Request) :
    (v.dispatch s op r).2 = s ∨ v.dispatch s op r = v.perform s op r := by
  unfold dispatch
  split
  · exact .inl rfl
  · split
    · split
      · exact .inl rfl
      · exact .inr rfl
    · exact .inl rfl

/-- **A request that fails changes nothing, unless what it wrote is refused.** On every store that
can be reached, every failing request to an operation leaves the store as it was, or is a creation
or an update that was written and whose row the schema refuses. Either way the store after it can be
reached, so this holds all along a run. -/
theorem unchanged_or_refused {op : Operation} (hs : s.Reachable)
    (h : v.dispatch s op r = (.error e, s')) :
    (s' = s ∨ v.Refused s r op e s') ∧ s'.Reachable := by
  rcases v.dispatch_cases s op r with hsame | hperform
  · obtain rfl : s' = s := by rwa [h] at hsame
    exact ⟨.inl rfl, hs⟩
  · rw [hperform] at h
    refine ⟨perform_error hs.ordered h, ?_⟩
    have hafter := reachable_perform (v := v) (r := r) hs op
    rwa [h] at hafter

/-! ## 3. A row that was written and is refused -/

/-- A table of notes. -/
def notes : Table where
  name := ['n']
  columns := [
    ⟨['i', 'd'], .integer, true, false, none, none, none, false⟩,
    ⟨['t'], .text, false, true, none, none, none, false⟩]

/-- A create schema that asks for a text and for a tag, which the table does not keep. -/
def tagged : BindingOptions where
  schemas := { SchemaChoice.none with
    create := some ⟨['T'], [⟨['t'], .str, false, true⟩, ⟨['g'], .str, false, true⟩], false, false⟩ }

/-- A service of notes with tags. -/
def noteService : Service where
  binding := .ofOptions notes tagged

/-- A request for a note with a tag. -/
def newNote : Request where
  query := []
  path := []
  body := .object [(['t'], .text ['a']), (['g'], .text ['b'])]

/-- The problem of a note without its tag. -/
def untagged : Problem := .ofFieldErrors [⟨['g'], .missing⟩] ['T'] none

/-- The store after a note was written. -/
def notedStore : Store := .ofRows notes [⟨1, [(['i', 'd'], .integer 1), (['t'], .text ['a'])]⟩]

/-- **A request may fail and leave its row.** The note is written without its tag, and read back it
is refused for want of one. -/
theorem failed_creation_leaves_row :
    Binding.create notes .standard tagged = .ok noteService.binding ∧
      (Store.empty notes).Reachable ∧ noteService.handler? .create = none ∧
      noteService.dispatch (.empty notes) .create newNote = (.error untagged, notedStore) ∧
      notedStore ≠ .empty notes := by
  refine ⟨rfl, .created (t := notes) rfl, rfl, rfl, fun h => ?_⟩
  cases congrArg Store.rows h

theorem unchanged_or_refused_note :
    ((Store.empty notes).Reachable ∧
        noteService.dispatch (.empty notes) .create newNote = (.error untagged, notedStore)) ∧
      (notedStore = .empty notes ∨
          noteService.Refused (.empty notes) newNote .create untagged notedStore) ∧
        notedStore.Reachable := by
  have hreachable : (Store.empty notes).Reachable := .created (t := notes) rfl
  have hrun : noteService.dispatch (.empty notes) .create newNote = (.error untagged, notedStore) :=
    rfl
  exact ⟨⟨hreachable, hrun⟩, unchanged_or_refused hreachable hrun⟩

end Service
end TableService
