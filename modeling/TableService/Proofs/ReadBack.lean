import TableService.Proofs.CellOrder
import TableService.Proofs.FiniteMap
import TableService.Proofs.ListFailures

/-!
# What is stored can be read back

A row is validated three times on its way: its values when they are sent, the row when it was
written, and again whenever it is read. The schemas differ in what they ask for, and between them
the store fills in defaults, numbers rows and keeps values in forms of its own. Under generated
schemas none of this can go wrong later:

> if every row of a table of plain columns can be read and validated, then **so can every row after
> any sequence of requests**, whether they succeed or fail.

So a schema can only refuse what a request sends, never what the store keeps. A listing and a search
are not refused by a schema at all, a retrieval only for its path, and a creation or an update is
not refused after it was written.
-/

namespace TableService

/-! ## 1. Refusals by a schema -/

/-- Whether a problem is that a schema refused something. -/
def Problem.IsSchema : Problem → Prop
  | .schema .. => True
  | _ => False

theorem Problem.IsSchema.isOwn {e : Problem} (h : e.IsSchema) : e.isOwn = true := by
  cases e with
  | schema errors name resource => rfl
  | _ => exact h.elim

theorem QueryFault.not_isSchema_problem (f : QueryFault) : ¬ f.problem.IsSchema := by
  unfold problem
  split
  case h_8 =>
    split
    · split <;> exact id
    · exact id
  all_goals exact id

theorem PageFault.not_isSchema_problem (f : PageFault) : ¬ f.problem.IsSchema := by
  cases f with
  | query f => exact f.not_isSchema_problem
  | _ => exact id

theorem StoreFault.not_isSchema_problem (f : Store.StoreFault) (statement : String) (t : Table) :
    ¬ (f.problem statement t).IsSchema := by
  cases f <;> exact id

theorem Part.not_isSchema_fault (p : Part) : ¬ p.fault.IsSchema := by
  cases p <;> exact id

namespace Service

open Store

variable {v : Service} {t : Table} {s s' : Store} {r : Request} {e : Problem}

/-! ## 2. What a request keeps -/

theorem rowColumns_eq_ok {columns : List Column} (h : v.rowColumns = .ok columns) :
    columns = v.binding.retrieveColumns := by
  obtain ⟨_, -, h⟩ := Outcome.bind_eq_ok.mp h
  cases h
  rfl

theorem changeFor_eq_ok {x : Value} {values : Members} {columns : List Column}
    (h : v.changeFor r = .ok (x, values, columns)) :
    v.lookupValue v.binding.keys.update r = .ok x ∧
      v.bodyValues v.binding.schemas.update r = .ok values ∧
        columns = v.binding.retrieveColumns := by
  obtain ⟨y, hy, h⟩ := Outcome.bind_eq_ok.mp h
  obtain ⟨sent, hsent, h⟩ := Outcome.bind_eq_ok.mp h
  obtain ⟨cs, hcolumns, h⟩ := Outcome.bind_eq_ok.mp h
  split at h
  · cases h
  · cases h
    exact ⟨hy, hsent, rowColumns_eq_ok hcolumns⟩

theorem isReadable_createRow (ht : t.IsPlain) (hv : v.IsGeneratedFor t) (hs : s.IsReadable t) :
    (v.createRow s r).2.IsReadable t := by
  rcases v.createRow_cases s r with ⟨e, hrun⟩ | ⟨values, row, s', shown, hbody, hinsert, -, hrun⟩
  · rw [hrun]
    exact hs
  · rw [hrun]
    have htyped := (of_bodyValues ht hv.table_eq hv.schemas.create hbody).2
    exact hs.inserted ht htyped (inserted_of_insert hinsert)

theorem isReadable_updateRow (ht : t.IsPlain) (hv : v.IsGeneratedFor t) (hs : s.IsReadable t) :
    (v.updateRow s r).2.IsReadable t := by
  have hupdated : ∀ {x values columns first s'}, v.changeFor r = .ok (x, values, columns) →
      s.update (equals v.binding.keys.update x) values = .ok (first, s') → s'.IsReadable t := by
    intro x values columns first s' hchange hupdate
    have hbody := (changeFor_eq_ok hchange).2.1
    have htyped := (of_bodyValues ht hv.table_eq hv.schemas.update hbody).2
    exact hs.updated ht htyped (updated_of_update hupdate)
  rcases v.updateRow_cases s r with
    ⟨e, hrun⟩ | ⟨x, values, columns, s', hchange, hupdate, hrun⟩ |
      ⟨x, values, columns, row, s', shown, hchange, hupdate, -, hrun⟩
  · rw [hrun]
    exact hs
  · rw [hrun]
    exact hupdated hchange hupdate
  · rw [hrun]
    exact hupdated hchange hupdate

theorem isReadable_destroyRow (hs : s.IsReadable t) : (v.destroyRow s r).2.IsReadable t := by
  rcases v.destroyRow_cases s r with
    ⟨e, hrun⟩ | ⟨x, s', -, hdelete, hrun⟩ | ⟨x, row, s', key, -, hdelete, -, hrun⟩
  · rw [hrun]
    exact hs
  · rw [hrun]
    exact hs.deleted (deleted_of_delete hdelete)
  · rw [hrun]
    exact hs.deleted (deleted_of_delete hdelete)

theorem isReadable_dispatch (ht : t.IsPlain) (hv : v.IsGeneratedFor t) (hs : s.IsReadable t)
    (op : Operation) : (v.dispatch s op r).2.IsReadable t := by
  rcases v.dispatch_cases s op r with hsame | hperform
  · rw [hsame]
    exact hs
  · rw [hperform]
    cases op with
    | create => exact isReadable_createRow ht hv hs
    | update => exact isReadable_updateRow ht hv hs
    | destroy => exact isReadable_destroyRow hs
    | list => exact hs
    | retrieve => exact hs
    | search => exact hs

theorem isReadable_serve (ht : t.IsPlain) (hv : v.IsGeneratedFor t) (hs : s.IsReadable t)
    (requests : List (Operation × Request)) : (v.serve s requests).2.IsReadable t := by
  induction requests generalizing s with
  | nil => exact hs
  | cons p requests ih => exact ih (isReadable_dispatch ht hv hs p.1)

/-! ## 3. The second validation -/

/-- **A row that was written is not refused**: the row that comes back from the store can be
answered, be it new or replaced. -/
theorem not_refused (ht : t.IsPlain) (hv : v.IsGeneratedFor t) (hs : s.IsReadable t)
    {op : Operation} : ¬ v.Refused s r op e s' := by
  intro h
  cases h with
  | @create values shown row _ _ body written read refused =>
    have htyped := (of_bodyValues ht hv.table_eq hv.schemas.create body).2
    have hrow := Row.isReadable_of_inserted ht hs.table_eq htyped (inserted_of_insert written)
    rw [hv.table_eq] at read
    obtain ⟨-, rfl⟩ := Row.values_eq_ok.mp read
    obtain ⟨data, hvalid, -⟩ := Outcome.map_eq_ok.mp (creationAnswer_eq ht hv.schemas hrow)
    cases hvalid.symm.trans refused
  | @update x values shown columns row _ _ change written read refused =>
    obtain ⟨-, body, rfl⟩ := changeFor_eq_ok change
    have htyped := (of_bodyValues ht hv.table_eq hv.schemas.update body).2
    have hwritten := updated_of_update written
    have hrow := (hs.updated ht htyped hwritten).rows row (mem_of_updated hwritten)
    have hanswer := rowAnswer_of_readable ht hv.table_eq hv.schemas hrow
    rw [rowAnswer, read] at hanswer
    obtain ⟨data, hvalid, -⟩ := Outcome.map_eq_ok.mp hanswer
    cases hvalid.symm.trans refused

/-! ## 4. Reading -/

theorem not_isSchema_of_require {p : Part} (h : v.require p = .error e) : ¬ e.IsSchema := by
  unfold require requireAmong at h
  split at h
  · cases h
    exact p.not_isSchema_fault
  · cases h

theorem not_isSchema_of_plan {ps : Params} (h : v.plan ps = .error e) : ¬ e.IsSchema := by
  rcases Outcome.bind_eq_error.mp h with hplan | ⟨_, -, h⟩
  · exact not_isSchema_of_require hplan
  · rcases Outcome.bind_eq_error.mp h with hbuild | ⟨p, -, h⟩
    · unfold Plan.build at hbuild
      split at hbuild
      · cases hbuild
        exact QueryFault.not_isSchema_problem _
      · split at hbuild
        · cases hbuild
          exact QueryFault.not_isSchema_problem _
        · split at hbuild
          · cases hbuild
            exact PageFault.not_isSchema_problem _
          · cases hbuild
    · rcases Outcome.bind_eq_error.mp h with hcolumns | ⟨_, -, h⟩
      · exact not_isSchema_of_require hcolumns
      · cases h

theorem not_isSchema_of_found {p : Plan} (h : v.found s p = .error e) : ¬ e.IsSchema := by
  rcases Outcome.bind_eq_error.mp h with hselect | ⟨q, -, hquery⟩
  · obtain ⟨f, -, rfl⟩ := Outcome.mapError_eq_error.mp hselect
    exact f.not_isSchema_problem
  · obtain ⟨f, -, rfl⟩ := Outcome.mapError_eq_error.mp hquery
    exact StoreFault.not_isSchema_problem f _ _

end Service

namespace Store

variable {s : Store}

/-- What is found are rows of the store. -/
theorem mem_of_mem_find {keep : Row → Bool} {order : List Sql.SortKey}
    {window : Option (Int × Int)} {r : Row} (h : r ∈ (s.find keep order window).rows) :
    r ∈ s.rows := by
  have hsorted : r ∈ sortRows order (s.rows.filter keep) := by
    unfold find cutWindow at h
    simp only at h
    split at h
    · exact h
    · split at h
      · exact List.mem_of_mem_drop h
      · exact List.mem_of_mem_drop (List.mem_of_mem_take h)
  exact (List.mem_filter.mp (mem_sortRows.mp hsorted)).1

theorem mem_of_search {columns fields : List Column} {pattern : Text} {order : List Sql.SortKey}
    {limit : Option Int} {found : Found}
    (h : s.search columns fields pattern order limit = .ok found) {r : Row}
    (hr : r ∈ found.rows) : r ∈ s.rows := by
  obtain ⟨_, -, h⟩ := Outcome.bind_eq_ok.mp h
  obtain ⟨_, -, h⟩ := Outcome.bind_eq_ok.mp h
  cases h
  exact mem_scanned.mp (mem_of_mem_find hr)

theorem mem_of_first? {condition : Except StoreFault Sql.Condition} {r : Row}
    (h : s.first? condition = .ok (some r)) : r ∈ s.rows := by
  obtain ⟨_, -, h⟩ := Outcome.bind_eq_ok.mp h
  obtain ⟨c, -, h⟩ := Outcome.bind_eq_ok.mp h
  obtain ⟨_, -, h⟩ := Outcome.bind_eq_ok.mp h
  exact List.mem_of_find?_eq_some (Except.ok.inj h)

theorem mem_of_lookUp? {columns : List Column} {condition : Except StoreFault Sql.Condition}
    {r : Row} (h : s.lookUp? columns condition = .ok (some r)) : r ∈ s.rows := by
  cases condition with
  | error f => exact mem_of_first? h
  | ok c => exact mem_scanned.mp (mem_of_first? h)

end Store

namespace Service

open Store

variable {v : Service} {t : Table} {s : Store} {r : Request} {e : Problem}

theorem showRows_of_forall {rows : List Row} (h : ∀ row ∈ rows, ∃ a, v.showRow row = .ok a) :
    ∃ shown, v.showRows rows = .ok shown := by
  induction rows with
  | nil => exact ⟨[], rfl⟩
  | cons row rows ih =>
    obtain ⟨hrow, hrows⟩ := List.forall_mem_cons.mp h
    obtain ⟨x, hx⟩ := hrow
    obtain ⟨xs, hxs⟩ := ih hrows
    exact ⟨x :: xs, showRows_cons_eq_ok.mpr ⟨x, xs, hx, hxs, rfl⟩⟩

theorem not_isSchema_of_list (hrows : ∀ row ∈ s.rows, ∃ a, v.showRow row = .ok a)
    (h : v.list s r = .error e) : ¬ e.IsSchema := by
  cases hp : v.plan r.query with
  | error e' =>
    have hlist : v.list s r = .error e' := Outcome.bind_eq_error.mpr (.inl hp)
    obtain rfl := Except.error.inj (hlist.symm.trans h)
    exact not_isSchema_of_plan hp
  | ok p =>
    rcases (list_eq_error hp).mp h with hfound | ⟨x, hx, hshown | ⟨shown, -, -, hcount⟩⟩
    · exact not_isSchema_of_found hfound
    · have hmem : ∀ row ∈ x.rows, ∃ a, v.showRow row = .ok a := by
        obtain ⟨c, ks, -, -, -, -, -, rfl⟩ := found_eq_ok.mp hx
        intro row hrow
        exact hrows row (mem_scanned.mp (mem_of_mem_find hrow))
      obtain ⟨shown, hok⟩ := showRows_of_forall hmem
      cases hok.symm.trans hshown
    · obtain ⟨rfl, -⟩ := envelope_eq_error.mp hcount
      exact id

theorem not_isSchema_of_listSelection (h : v.listSelection = .error e) : ¬ e.IsSchema := by
  rcases Outcome.bind_eq_error.mp h with hselection | ⟨_, -, h⟩
  · exact not_isSchema_of_require hselection
  · rcases Outcome.bind_eq_error.mp h with hcolumns | ⟨_, -, h⟩
    · exact not_isSchema_of_require hcolumns
    · cases h

theorem not_isSchema_of_rowColumns (h : v.rowColumns = .error e) : ¬ e.IsSchema := by
  rcases Outcome.bind_eq_error.mp h with hcolumns | ⟨_, -, h⟩
  · exact not_isSchema_of_require hcolumns
  · cases h

theorem listSelection_eq_ok {columns : List Column} (h : v.listSelection = .ok columns) :
    columns = v.binding.listColumns := by
  obtain ⟨_, -, h⟩ := Outcome.bind_eq_ok.mp h
  obtain ⟨_, -, h⟩ := Outcome.bind_eq_ok.mp h
  cases h
  rfl

/-- Before the rows that a search found are validated, no schema refuses anything. -/
theorem not_isSchema_of_find {sent : Option Occurrence}
    (h : v.search.find v.binding v.listSelection s sent = .error e) : ¬ e.IsSchema := by
  unfold SearchBackend.find at h
  split at h
  case h_4 =>
    unfold SearchBackend.findPattern at h
    split at h
    · cases h
    · rcases Outcome.bind_eq_error.mp h with hcolumns | ⟨columns, -, h⟩
      · exact not_isSchema_of_listSelection hcolumns
      · rcases Outcome.bind_eq_error.mp h with horder | ⟨order, -, h⟩
        · obtain ⟨f, -, rfl⟩ := Outcome.mapError_eq_error.mp horder
          exact f.not_isSchema_problem
        · rcases Outcome.bind_eq_error.mp h with hsearch | ⟨found, -, hread⟩
          · obtain ⟨f, -, rfl⟩ := Outcome.mapError_eq_error.mp hsearch
            exact StoreFault.not_isSchema_problem f _ _
          · intro hschema
            have hown := (Row.exists_of_valuesOfAll hread).1
            rw [hschema.isOwn] at hown
            cases hown
  case h_5 =>
    split at h
    · cases h
    · cases h
      exact id
  all_goals cases h

/-- What a search finds is read of rows of the store, in the columns of a listing. -/
theorem rows_of_find {sent : Option Occurrence} {read : List Members}
    (h : v.search.find v.binding v.listSelection s sent = .ok read) :
    ∃ rows, (∀ row ∈ rows, row ∈ s.rows) ∧
      Row.valuesOfAll v.binding.listColumns rows = .ok read := by
  have hnone : Except.ok [] = Except.ok (ε := Problem) read →
      ∃ rows, (∀ row ∈ rows, row ∈ s.rows) ∧
        Row.valuesOfAll v.binding.listColumns rows = .ok read := by
    intro hempty
    exact ⟨[], by simp, hempty⟩
  unfold SearchBackend.find at h
  split at h
  case h_4 =>
    unfold SearchBackend.findPattern at h
    split at h
    · exact hnone h
    · obtain ⟨columns, hcolumns, h⟩ := Outcome.bind_eq_ok.mp h
      obtain ⟨order, -, h⟩ := Outcome.bind_eq_ok.mp h
      obtain ⟨found, hsearch, hread⟩ := Outcome.bind_eq_ok.mp h
      rw [listSelection_eq_ok hcolumns] at hread
      refine ⟨found.rows, ?_, hread⟩
      intro row hrow
      exact mem_of_search (Outcome.mapError_eq_ok.mp hsearch) hrow
  case h_5 =>
    split at h
    · exact hnone h
    · cases h
  all_goals exact hnone h

theorem not_isSchema_of_searchRows (hrows : ∀ row ∈ s.rows, ∃ a, v.showRow row = .ok a)
    (h : v.searchRows s r = .error e) : ¬ e.IsSchema := by
  rcases Outcome.bind_eq_error.mp h with hsent | ⟨sent, -, h⟩
  · obtain ⟨f, -, rfl⟩ := Outcome.mapError_eq_error.mp hsent
    exact f.not_isSchema_problem
  · rcases Outcome.bind_eq_error.mp h with hfind | ⟨read, hfind, h⟩
    · exact not_isSchema_of_find hfind
    · obtain ⟨rows, hmem, hread⟩ := rows_of_find hfind
      obtain ⟨shown, hshown⟩ := showRows_of_forall fun row hrow => hrows row (hmem row hrow)
      rw [showRows, hread] at hshown
      rcases Outcome.bind_eq_error.mp h with hpresent | ⟨_, -, h⟩
      · cases hshown.symm.trans hpresent
      · cases h

theorem not_isSchema_notFound (c : Column) (x : Value) : ¬ (v.notFound c x).IsSchema := by
  unfold notFound
  split
  · exact id
  · next hrequire => exact not_isSchema_of_require hrequire

/-- A retrieval is refused by a schema only for the value that its path looks a row up by. -/
theorem lookupValue_of_retrieve (hrows : ∀ row ∈ s.rows, ∃ a, v.rowAnswer row = .ok a)
    (h : v.retrieve s r = .error e) (hschema : e.IsSchema) :
    v.lookupValue v.binding.keys.retrieve r = .error e := by
  rcases Outcome.bind_eq_error.mp h with hpath | ⟨x, -, h⟩
  · exact hpath
  · refine absurd hschema ?_
    rcases Outcome.bind_eq_error.mp h with hcolumns | ⟨columns, hcolumns, h⟩
    · exact not_isSchema_of_rowColumns hcolumns
    · rcases Outcome.bind_eq_error.mp h with hfirst | ⟨row, hfirst, h⟩
      · obtain ⟨f, -, rfl⟩ := Outcome.mapError_eq_error.mp hfirst
        exact StoreFault.not_isSchema_problem f _ _
      · cases row with
        | none =>
          cases h
          exact not_isSchema_notFound _ _
        | some row =>
          -- The row is one of the store, so it can be answered.
          obtain ⟨a, ha⟩ := hrows row (mem_of_lookUp? (Outcome.mapError_eq_ok.mp hfirst))
          rw [rowColumns_eq_ok hcolumns] at h
          cases ha.symm.trans h

/-! ## 5. Runs -/

/-- Whether all that a store keeps can be read back through a service. Each row is answered by a
retrieval and in a listing; a schema refuses no listing and no search, a retrieval only for its
path, and no row of a creation or an update after it was written. -/
structure ReadsBack (v : Service) (s : Store) : Prop where
  rows : ∀ row ∈ s.rows, ∃ a, v.rowAnswer row = .ok a ∧ v.showRow row = .ok a
  list : ∀ r e, v.list s r = .error e → ¬ e.IsSchema
  search : ∀ r e, v.searchRows s r = .error e → ¬ e.IsSchema
  retrieve : ∀ r e, v.retrieve s r = .error e → e.IsSchema →
    v.lookupValue v.binding.keys.retrieve r = .error e
  written : ∀ op r e s', ¬ v.Refused s r op e s'

theorem readsBack_of_isReadable (ht : t.IsPlain) (hv : v.IsGeneratedFor t)
    (hs : s.IsReadable t) : v.ReadsBack s := by
  have hrows : ∀ row ∈ s.rows, ∃ a, v.rowAnswer row = .ok a ∧ v.showRow row = .ok a := by
    intro row hrow
    have hanswer := rowAnswer_of_readable ht hv.table_eq hv.schemas (hs.rows row hrow)
    exact ⟨_, hanswer, (hv.showRow_eq row).trans hanswer⟩
  have hshown : ∀ row ∈ s.rows, ∃ a, v.showRow row = .ok a := by
    intro row hrow
    obtain ⟨a, -, ha⟩ := hrows row hrow
    exact ⟨a, ha⟩
  have hanswered : ∀ row ∈ s.rows, ∃ a, v.rowAnswer row = .ok a := by
    intro row hrow
    obtain ⟨a, ha, -⟩ := hrows row hrow
    exact ⟨a, ha⟩
  exact {
    rows := hrows
    list := fun r e h => not_isSchema_of_list hshown h
    search := fun r e h => not_isSchema_of_searchRows hshown h
    retrieve := fun r e h => lookupValue_of_retrieve hanswered h
    written := fun op r e s' => not_refused ht hv hs }

/-- **What is stored can be read back.** Take a table of plain columns whose defaults are values of
their types, a service that is bound to it with generated schemas, and any content whose rows can be
answered. After any sequence of requests, whatever is asked and whether it succeeds or fails, all
that the store keeps can be read back. -/
theorem serve_readsBack (ht : t.IsPlain) (hv : v.IsGeneratedFor t) (hs : s.table = t)
    (hrows : ∀ row ∈ s.rows, ∃ a, v.rowAnswer row = .ok a)
    (requests : List (Operation × Request)) : v.ReadsBack (v.serve s requests).2 := by
  have hreadable : s.IsReadable t := by
    refine ⟨hs, ?_⟩
    intro row hrow
    obtain ⟨a, ha⟩ := hrows row hrow
    exact isReadable_of_rowAnswer ht hv.table_eq hv.schemas ha
  exact readsBack_of_isReadable ht hv (isReadable_serve ht hv hreadable requests)

/-- The level of water at places, day by day. No column alone is a key. The day is filled in by the
store, the level by its default. -/
def levels : Table where
  name := ['l']
  columns := [
    ⟨['p'], .string, true, false, none, none, none, false⟩,
    ⟨['d'], .date, true, false, none, some "2024-02-29".toList, none, false⟩,
    ⟨['x'], .float, false, false, some (.real (.finite false 1 (-1))), none, none, false⟩,
    ⟨['w'], .boolean, false, true, none, none, none, false⟩]

/-- How the levels are bound: looked up by their place, with the schemas of their table. -/
def levelOptions : BindingOptions where
  keyPolicy := .column ['p']

/-- A service of levels. -/
def levelService : Service where
  binding := .ofOptions levels levelOptions

/-- The levels of one place on two days. -/
def twoLevels : Store := .ofRows levels [
  ⟨1, [(['p'], .text ['a']), (['d'], .text "2024-01-01".toList),
    (['x'], .real (.finite false 1 0)), (['w'], .null)]⟩,
  ⟨2, [(['p'], .text ['a']), (['d'], .text "2024-01-02".toList),
    (['x'], .real (.finite false 3 0)), (['w'], .integer 1)]⟩]

/-- A level is added of which only the place is known, both old ones are said to be wet, one is to
have no level, and all of a place are deleted. -/
def levelRequests : List (Operation × Request) := [
  (.create, bookRequest [] [(['p'], .text ['b'])]),
  (.update, bookRequest [(['p'], .text ['a'])] [(['w'], .boolean true)]),
  (.update, bookRequest [(['p'], .text ['a'])] [(['x'], .null)]),
  (.destroy, bookRequest [(['p'], .text ['b'])] [])]

theorem isPlain_levels : levels.IsPlain where
  names := by decide
  plain := by decide
  fallback := by simp [levels, ColumnType.Holds]
  serverDefault := by
    simp only [levels, List.forall_mem_cons]
    refine ⟨by simp, ?_, by simp, by simp, by simp⟩
    intro d hd
    cases hd
    exact ⟨.date ⟨2024, 2, 29⟩, rfl, rfl⟩

theorem serve_readsBack_levels :
    (levels.IsPlain ∧ levelService.IsGeneratedFor levels ∧ twoLevels.table = levels ∧
        ∀ row ∈ twoLevels.rows, ∃ a, levelService.rowAnswer row = .ok a) ∧
      levelService.ReadsBack (levelService.serve twoLevels levelRequests).2 := by
  have hbound : levelService.IsGeneratedFor levels := ⟨.standard, levelOptions, rfl, rfl⟩
  have hrows : ∀ row ∈ twoLevels.rows, ∃ a, levelService.rowAnswer row = .ok a := by
    simp only [twoLevels, ofRows, List.forall_mem_cons]
    exact ⟨⟨_, rfl⟩, ⟨_, rfl⟩, by simp⟩
  exact ⟨⟨isPlain_levels, hbound, rfl, hrows⟩,
    serve_readsBack isPlain_levels hbound rfl hrows levelRequests⟩

end Service
end TableService
