import TableService.Proofs.AllOrNothing
import TableService.Proofs.Bindings
import TableService.Proofs.RowAnswers

/-!
# Requests on one row run a finite map

A resource of a keyed table under generated schemas is a finite map from keys to rows:

> every sequence of creations, retrievals, updates and deletions answers, and leaves the table, **as
> a directory would that sets, finds, replaces and removes one entry at a time**.

The directory of a store is read off its rows. `Step` says what one request may do to a directory,
without a word about the store; there is one lemma for each operation, which says that what the
operation does is a step. A run is an induction over the requests, carried by what each step keeps:
the rows are entries with different keys, and each of them can be answered.

A column whose name is private has no field in a generated schema. It is a part of the entry, and
answers leave it out.
-/

namespace TableService

/-- Whether a problem is that there is no row. -/
def Problem.IsNotFound : Problem → Prop
  | .notFound .. => True
  | _ => False

namespace Service

open Store

/-! ## 1. Services of keyed tables -/

/-- The operations on the rows of a resource, one row each. -/
def rowOperations : List Operation := [.create, .retrieve, .update, .destroy]

/-- Whether a service answers for the rows of a keyed table: its binding was made with generated
schemas and looks rows up by their key, and the operations on one row are exposed as they are built
in. -/
structure Keeps (v : Service) (t : Table) (key : Column) : Prop where
  bound : ∃ settings o, o.schemas = SchemaChoice.none ∧ Binding.create t settings o = .ok v.binding
  keys : v.binding.keys = ⟨key, key, key⟩
  keyed : t.IsKeyed key
  exposed : ∀ op ∈ rowOperations, op ∈ v.exposed
  builtIn : ∀ op ∈ rowOperations, v.handlers.lookup op = none
  whole : v.substitutes = []

variable {v : Service} {t : Table} {key : Column} {s s' : Store} {r : Request} {k : Literal}

theorem Keeps.table_eq (hv : v.Keeps t key) : v.binding.table = t :=
  IsGeneratedFor.table_eq hv.bound

theorem Keeps.schemas (hv : v.Keeps t key) : v.binding.schemas.IsGenerated t :=
  IsGeneratedFor.schemas hv.bound

/-- Where no action has taken the place of a part, no part is refused. -/
theorem require_eq_ok (hwhole : v.substitutes = []) (p : Part) : v.require p = .ok () := by
  rw [Service.require, requireAmong, hwhole]
  rfl

theorem Keeps.require (hv : v.Keeps t key) (p : Part) : v.require p = .ok () :=
  require_eq_ok hv.whole p

theorem Keeps.dispatch (hv : v.Keeps t key) {op : Operation} (hop : op ∈ rowOperations)
    (s : Store) (r : Request) : v.dispatch s op r = v.perform s op r := by
  have hhandler : v.handler? op = none := by
    rw [handler?, hv.builtIn op hop, hv.whole]
    rfl
  rw [Service.dispatch, hv.require .dispatch]
  simp only [if_pos (hv.exposed op hop), hhandler]

/-- Whether the path of a request has a value that stands for a key and can be sent to the store. -/
structure Addresses (key : Column) (r : Request) (k : Literal) : Prop where
  coerced : ∃ raw, r.path.lookup key.name = some raw ∧
    Convert.toKind key.type.fieldKind raw = .ok (.literal k)
  bindable : Store.bindable k = true

theorem Addresses.hasKey (hr : Addresses key r k) (ht : t.IsKeyed key) : key.type.HasKey k := by
  obtain ⟨raw, -, hraw⟩ := hr.coerced
  rcases Convert.holds_of_toKind (ht.plain key ht.mem) hraw with hholds | ⟨u, hu⟩
  · rcases ht.type_cases with (htype | htype) | htype | htype <;> rw [htype] at hholds ⊢ <;>
      cases k <;> exact hholds
  · cases hu

theorem Addresses.unique {l : Literal} (hr : Addresses key r k) (hl : Addresses key r l) :
    k = l := by
  obtain ⟨raw, hlookup, hraw⟩ := hr.coerced
  obtain ⟨raw', hlookup', hraw'⟩ := hl.coerced
  obtain rfl := Option.some.inj (hlookup.symm.trans hlookup')
  exact Value.literal.inj (Except.ok.inj (hraw.symm.trans hraw'))

theorem lookupValue_eq (hv : v.Keeps t key) (hr : Addresses key r k) :
    v.lookupValue key r = .ok (.literal k) := by
  obtain ⟨raw, hlookup, hraw⟩ := hr.coerced
  rw [lookupValue, hv.require .lookup]
  change v.pathValue key r = _
  rw [pathValue, hv.require .lookupRequest]
  simp only [bind, Except.bind, hlookup, Column.lookupValue, hraw]

theorem notFound_eq (hv : v.Keeps t key) (x : Value) :
    v.notFound key x = .notFound v.name key.name x none := by
  rw [notFound, hv.require .notFound]

/-! ## 2. Bodies -/

theorem not_isNotFound_of_validate {schema : Schema} {body : Value} {isPartial : Bool} {e : Problem}
    (h : schema.validate body isPartial = .error e) : ¬ e.IsNotFound := by
  have hmembers : ∀ members, schema.validateMembers members isPartial = .error e →
      ¬ e.IsNotFound := by
    intro members h
    unfold Schema.validateMembers at h
    split at h
    · cases h
    · cases h
      exact id
  unfold Schema.validate at h
  split at h
  · exact hmembers _ h
  · exact hmembers _ h
  · split at h
    · cases h
      exact id
    · exact hmembers _ h
  · cases h
    exact id

theorem not_isNotFound_of_bodyValues {schema : Schema} {e : Problem}
    (h : v.bodyValues schema r = .error e) : ¬ e.IsNotFound := by
  rcases Outcome.bind_eq_error.mp h with hvalid | ⟨data, -, hcolumns⟩
  · exact not_isNotFound_of_validate hvalid
  · unfold columnValues at hcolumns
    simp only at hcolumns
    split at hcolumns
    · cases hcolumns
      exact id
    · cases hcolumns

theorem not_isNotFound_of_fault (f : StoreFault) (statement : String) (t : Table) :
    ¬ (f.problem statement t).IsNotFound := by
  cases f <;> exact id

/-- Whether the body of an update gives the columns something that there are cells for. -/
def Sends (v : Service) (t : Table) (r : Request) : Prop :=
  ∃ values parameters cells, v.bodyValues v.binding.schemas.update r = .ok values ∧ values ≠ [] ∧
    bindAll values t.columns = .ok parameters ∧ cellsOf parameters = .ok cells

/-! ## 3. What a request does to a directory -/

/-- What one request may do to a directory, and what it answers.

* A creation or an update may be refused, and then nothing changes; which of them are is another
  matter (`createRow_succeeds_iff`, `updateRow_succeeds_iff`). An update for which there is no entry
  is refused only if its body cannot be sent.
* A creation that is not refused sets an entry that was not there: in each column the stored form of
  what the validated body gives, else the default, else null, and a new number for a key of numbers
  that is left out or null. The answer is the entry.
* A retrieval answers the entry.
* An update that is not refused sets the given columns of the entry, which stays under its key or
  comes to stand under one that was free, and answers the new entry.
* A deletion removes the entry and answers its key.
* If there is no entry, that is the answer, and nothing changes. -/
inductive Step (v : Service) (t : Table) (key : Column) (D : Directory) (r : Request) :
    Operation → Except Problem Value → Directory → Prop where
  | creationRefused {e : Problem} : Step v t key D r .create (.error e) D
  | created {values : Members} {number : Int} {k : Literal}
    (body : v.binding.schemas.create.validate r.body true = .ok values)
    (key_eq : created key number values key = .literal k) (new : D k = none) :
    Step v t key D r .create (.ok (.object (visible (createdEntry t key number values))))
      (Function.update D k (some (createdEntry t key number values)))
  | retrieved {k : Literal} {entry : Members} (path : Addresses key r k)
    (found : D k = some entry) :
    Step v t key D r .retrieve (.ok (.object (visible entry))) D
  | updateRefused {e : Problem} (other : ¬ e.IsNotFound)
    (there : v.Sends t r → ∃ k, Addresses key r k ∧ D k ≠ none) :
    Step v t key D r .update (.error e) D
  | updated {values entry : Members} {k k' : Literal} (path : Addresses key r k)
    (body : v.binding.schemas.update.validate r.body true = .ok values)
    (found : D k = some entry)
    (key_eq : (assign values entry).lookup key.name = some (.literal k'))
    (free : k' = k ∨ D k' = none) :
    Step v t key D r .update (.ok (.object (visible (assign values entry))))
      (Function.update (Function.update D k none) k' (some (assign values entry)))
  | destroyed {k : Literal} {entry : Members} (path : Addresses key r k)
    (found : D k = some entry) :
    Step v t key D r .destroy (.ok (.literal k)) (Function.update D k none)
  | missing {op : Operation} {k : Literal} (detail : op ∈ Operation.details)
    (path : Addresses key r k) (absent : D k = none) :
    Step v t key D r op (.error (.notFound v.name key.name (.literal k) none)) D

/-- **A creation under a key that is taken fails**, and changes nothing. -/
theorem Step.refused_of_taken {D D' : Directory} {a : Except Problem Value}
    (h : Step v t key D r .create a D') {values : Members}
    (hbody : v.binding.schemas.create.validate r.body true = .ok values)
    (hk : key.type.HasKey k) (hgiven : values.lookup key.name = some (.literal k))
    (htaken : D k ≠ none) : (∃ e, a = .error e) ∧ D' = D := by
  cases h with
  | creationRefused => exact ⟨⟨_, rfl⟩, rfl⟩
  | @created values' number l body key_eq new =>
    obtain rfl := Except.ok.inj (body.symm.trans hbody)
    have hmeant : meant values' key = some (.literal k) := by
      rw [meant, hgiven]
      rfl
    have hcreated : Store.created key number values' key = .literal k := by
      rw [Store.created, hmeant]
      rcases hk.cases with ⟨-, n, rfl⟩ | ⟨-, u, rfl⟩ <;> simp [Value.isNull, Value.storedForm]
    have hsame : k = l := Value.literal.inj (hcreated.symm.trans key_eq)
    exact absurd (hsame ▸ new) htaken
  | missing detail => exact absurd detail (by decide)

/-- **Nothing found is the answer exactly if there is no entry**, for an update as far as its body
can be sent. -/
theorem Step.notFound_iff {D D' : Directory} {op : Operation} {a : Except Problem Value}
    (h : Step v t key D r op a D') (hop : op ∈ Operation.details) (hr : Addresses key r k)
    (hsent : op = .update → v.Sends t r) :
    a = .error (.notFound v.name key.name (.literal k) none) ↔ D k = none := by
  cases h with
  | creationRefused => exact absurd hop (by decide)
  | created => exact absurd hop (by decide)
  | retrieved path found => simp [hr.unique path, found]
  | updateRefused other there =>
    obtain ⟨l, path, hthere⟩ := there (hsent rfl)
    refine ⟨fun heq => ?_, fun habsent => absurd (hr.unique path ▸ habsent) hthere⟩
    rw [Except.error.inj heq] at other
    exact absurd trivial other
  | updated path _ found => simp [hr.unique path, found]
  | destroyed path found => simp [hr.unique path, found]
  | missing _ path absent => simp [hr.unique path, absent]

/-- What holds of a store all along a run: it is a directory, and each row can be answered. -/
structure Content (t : Table) (key : Column) (s : Store) : Prop where
  directory : s.IsDirectory t key
  readable : ∀ row ∈ s.rows, row.IsReadable t

/-! ## 4. Each operation takes a step -/

theorem create_step (hv : v.Keeps t key) (hs : Content t key s) (r : Request) :
    Step v t key (s.directory key) r .create (v.createRow s r).1
        ((v.createRow s r).2.directory key) ∧ Content t key (v.createRow s r).2 := by
  rcases v.createRow_cases s r with
    ⟨e, hrun⟩ | ⟨values, row, s', shown, hbody, hinsert, hread, hrun⟩
  · rw [hrun]
    exact ⟨.creationRefused, hs⟩
  · have ht := hv.keyed
    obtain ⟨hvalid, htyped⟩ := of_bodyValues hv.keyed.isPlain hv.table_eq hv.schemas.create hbody
    have hinserted := inserted_of_insert hinsert
    have htable := hs.directory.table_eq
    have hnew := key_ne_of_inserted ht hs.directory htyped hinserted
    have hreadable := Row.isReadable_of_inserted ht.isPlain htable htyped hinserted
    rw [hv.table_eq] at hread
    obtain ⟨-, rfl⟩ := Row.values_eq_ok.mp hread
    -- Everything the row shows was meant for it, and its key was not there, or it would clash.
    rw [hrun, creationAnswer_eq ht.isPlain hv.schemas hreadable,
      shown_created ht htable htyped hinserted, directory_inserted ht hs.directory htyped hinserted]
    refine ⟨.created hvalid (created_key ht htable htyped hinserted).2
      (directory_eq_none.mpr fun x hx => (hnew x hx).symm),
      hs.directory.inserted ht htyped hinserted, ?_⟩
    exact (IsReadable.inserted ht.isPlain ⟨htable, hs.readable⟩ htyped hinserted).rows

theorem retrieve_step (hv : v.Keeps t key) (hs : Content t key s) (hr : Addresses key r k) :
    Step v t key (s.directory key) r .retrieve (v.retrieve s r) (s.directory key) := by
  have hk := hr.hasKey hv.keyed
  cases hfound : s.rows.find? fun row => decide (row.key key = k) with
  | none =>
    have hrun : v.retrieve s r = .error (v.notFound key (.literal k)) := by
      rw [retrieve, hv.keys]
      simp only [lookupValue_eq hv hr, rowColumns, hv.require .rowColumns, bind, Except.bind, pure,
        Except.pure, lookUp?_key hs.directory hk hr.bindable, Except.mapError, hfound]
    have habsent : s.directory key k = none := by
      rw [directory, hfound]
      rfl
    rw [hrun, notFound_eq hv]
    exact .missing (by decide) hr habsent
  | some row =>
    have hrun : v.retrieve s r = v.rowAnswer row := by
      rw [retrieve, hv.keys]
      simp only [lookupValue_eq hv hr, rowColumns, hv.require .rowColumns, bind, Except.bind, pure,
        Except.pure, lookUp?_key hs.directory hk hr.bindable, Except.mapError, hfound, rowAnswer]
    have hentry : s.directory key k = some (row.shown t) := by
      rw [directory, hfound, hs.directory.table_eq]
      rfl
    have hreadable := hs.readable row (List.mem_of_find?_eq_some hfound)
    rw [hrun, rowAnswer_eq hv.keyed hv.table_eq hv.schemas hreadable]
    exact .retrieved hr hentry

/-- What an update does whose body gives values to columns. -/
theorem updateRow_eq (hv : v.Keeps t key) (s : Store) (hr : Addresses key r k) {values : Members}
    (hbody : v.bodyValues v.binding.schemas.update r = .ok values) :
    v.updateRow s r = if values.isEmpty then (.error .wrongType, s)
      else match s.update (equals key (.literal k)) values with
        | .error f => (.error (f.problem "update" t), s)
        | .ok (none, s') => (.error (.notFound v.name key.name (.literal k) none), s')
        | .ok (some row, s') =>
          match row.values v.binding.retrieveColumns with
          | .error e => (.error e, s)
          | .ok shown => (present v.binding.schemas.retrieve shown, s') := by
  have hkey : t.primaryKey.isEmpty = false := by rw [hv.keyed.primaryKey]; rfl
  have hchange : v.changeFor r = if values.isEmpty then .error .wrongType
      else .ok (.literal k, values, v.binding.retrieveColumns) := by
    rw [changeFor, hv.keys]
    simp only [lookupValue_eq hv hr, hbody, rowColumns, hv.require .rowColumns, bind, Except.bind,
      pure, Except.pure, hv.table_eq, hkey, Bool.not_false, Bool.and_true]
  rw [updateRow, hchange, hv.keys, ← notFound_eq hv, ← hv.table_eq]
  cases values.isEmpty <;> rfl

theorem updateRow_cases_of_keeps (hv : v.Keeps t key) (hs : s.IsDirectory t key)
    (hr : Addresses key r k) :
    (∃ e, ¬ e.IsNotFound ∧ (v.Sends t r → s.directory key k ≠ none) ∧
        v.updateRow s r = (.error e, s)) ∨
      ∃ values first s', v.bodyValues v.binding.schemas.update r = .ok values ∧ values ≠ [] ∧
        s.update (equals key (.literal k)) values = .ok (first, s') ∧
        v.updateRow s r = match first with
          | none => (.error (.notFound v.name key.name (.literal k) none), s')
          | some row =>
            match row.values v.binding.retrieveColumns with
            | .error e => (.error e, s)
            | .ok shown => (present v.binding.schemas.retrieve shown, s') := by
  cases hbody : v.bodyValues v.binding.schemas.update r with
  | error e =>
    refine .inl ⟨e, not_isNotFound_of_bodyValues hbody, ?_, ?_⟩
    · rintro ⟨values, -, -, hsent, -⟩
      cases hbody.symm.trans hsent
    · rw [updateRow, changeFor, hv.keys]
      simp only [lookupValue_eq hv hr, hbody, bind, Except.bind]
  | ok values =>
    rw [updateRow_eq hv s hr hbody]
    cases hempty : values.isEmpty with
    | true =>
      refine .inl ⟨.wrongType, id, ?_, rfl⟩
      rintro ⟨values', -, -, hsent, hne, -⟩
      obtain rfl := Except.ok.inj (hbody.symm.trans hsent)
      exact absurd (List.isEmpty_iff.mp hempty) hne
    | false =>
      simp only [Bool.false_eq_true, if_false]
      cases hupdate : s.update (equals key (.literal k)) values with
      | error f =>
        -- If there were no row with the key, the store would have found nothing to refuse.
        refine .inl ⟨_, not_isNotFound_of_fault f _ _, ?_, rfl⟩
        rintro ⟨values', ps, cells, hsent, -, hbind, hcells⟩ habsent
        obtain rfl := Except.ok.inj (hbody.symm.trans hsent)
        cases hupdate.symm.trans
          (update_absent hv.keyed hs (hr.hasKey hv.keyed) hr.bindable habsent hbind hcells)
      | ok p =>
        obtain ⟨first, s'⟩ := p
        refine .inr ⟨values, first, s', rfl, ?_, hupdate, ?_⟩
        · rintro rfl
          cases hempty
        · cases first <;> rfl

theorem update_step (hv : v.Keeps t key) (hs : Content t key s) (hr : Addresses key r k) :
    Step v t key (s.directory key) r .update (v.updateRow s r).1
        ((v.updateRow s r).2.directory key) ∧ Content t key (v.updateRow s r).2 := by
  have ht := hv.keyed
  have hk := hr.hasKey ht
  rcases updateRow_cases_of_keeps hv hs.directory hr with
    ⟨e, hother, hthere, hrun⟩ | ⟨values, first, s', hbody, -, hupdate, hrun⟩
  · rw [hrun]
    exact ⟨.updateRefused hother fun hsent => ⟨k, hr, hthere hsent⟩, hs⟩
  · obtain ⟨hvalid, htyped⟩ := of_bodyValues hv.keyed.isPlain hv.table_eq hv.schemas.update hbody
    have hupdated := updated_of_update hupdate
    cases first with
    | none =>
      rw [hrun]
      -- No row was marked, so all that ran was the sort, and the rows were sorted.
      obtain rfl := eq_of_updated_none hs.directory.ordered hupdated
      have habsent := directory_eq_none_of_updated hs.directory hk hupdated
      exact ⟨.missing (by decide) hr habsent, hs⟩
    | some row =>
      obtain ⟨old, h⟩ := replaced_of_updated hs.directory hk hupdated
      have hrow : row ∈ s'.rows := mem_of_updated hupdated
      have hrows :=
        (IsReadable.updated ht.isPlain ⟨hs.directory.table_eq, hs.readable⟩ htyped hupdated).rows
      have hentry := shown_replaced ht hs.directory htyped h
      have hfound : s.directory key k = some (old.shown t) :=
        h.key_eq ▸ directory_key hs.directory h.mem
      obtain ⟨shown, hvalues, hpresent⟩ :=
        Outcome.bind_eq_ok.mp (rowAnswer_eq ht hv.table_eq hv.schemas (hrows row hrow))
      have hafter := hs.directory.replaced ht htyped h
      rw [hrun]
      simp only [hvalues, hpresent, directory_replaced ht hs.directory htyped h, hentry]
      refine ⟨.updated hr hvalid hfound ?_ (key_free_of_replaced ht hs.directory htyped h),
        hafter, hrows⟩
      rw [← hentry]
      exact lookup_shown_key ht (hafter.entries row hrow)

theorem destroy_step (hv : v.Keeps t key) (hs : Content t key s) (hr : Addresses key r k) :
    Step v t key (s.directory key) r .destroy (v.destroyRow s r).1
        ((v.destroyRow s r).2.directory key) ∧ Content t key (v.destroyRow s r).2 := by
  have hk := hr.hasKey hv.keyed
  have hdeleted : Content t key
      { s with rows := s.rows.filter fun row => decide (row.key key ≠ k) } :=
    ⟨hs.directory.deleted k, fun row hrow => hs.readable row (List.mem_filter.mp hrow).1⟩
  rw [destroyRow, hv.keys]
  simp only [lookupValue_eq hv hr, delete_key hs.directory hk hr.bindable]
  cases hfound : s.rows.find? fun row => decide (row.key key = k) with
  | none =>
    have habsent : s.directory key k = none := by
      rw [directory, hfound]
      rfl
    simp only [notFound_eq hv, directory_deleted hs.directory k]
    rw [Function.update_eq_self_iff.mpr habsent.symm]
    exact ⟨.missing (by decide) hr habsent, hdeleted⟩
  | some row =>
    have hrow := List.mem_of_find?_eq_some hfound
    have hkey : row.key key = k := by simpa using List.find?_some hfound
    have hentry : s.directory key k = some (row.shown t) :=
      hkey ▸ directory_key hs.directory hrow
    have hread : Codec.decode key.type (row.cell key) = .ok (.literal k) :=
      hkey ▸ decode_key (hs.directory.entries row hrow).hasKey
    simp only [hread, directory_deleted hs.directory k]
    exact ⟨.destroyed hr hentry, hdeleted⟩

/-! ## 5. Runs -/

/-- Whether a request is to an operation on one row and addresses a key, unless it is a creation. -/
structure IsRowRequest (key : Column) (op : Operation) (r : Request) : Prop where
  operation : op ∈ rowOperations
  addressed : op ∈ Operation.details → ∃ k, Addresses key r k

theorem dispatch_step (hv : v.Keeps t key) (hs : Content t key s) {op : Operation}
    (hr : IsRowRequest key op r) :
    Step v t key (s.directory key) r op (v.dispatch s op r).1
        ((v.dispatch s op r).2.directory key) ∧ Content t key (v.dispatch s op r).2 := by
  rw [hv.dispatch hr.operation]
  cases op with
  | create => exact create_step hv hs r
  | retrieve =>
    obtain ⟨k, hk⟩ := hr.addressed (by decide)
    exact ⟨retrieve_step hv hs hk, hs⟩
  | update =>
    obtain ⟨k, hk⟩ := hr.addressed (by decide)
    exact update_step hv hs hk
  | destroy =>
    obtain ⟨k, hk⟩ := hr.addressed (by decide)
    exact destroy_step hv hs hk
  | list => exact absurd hr.operation (by decide)
  | search => exact absurd hr.operation (by decide)

/-- The answers to requests, one after another, with the store after them. -/
def serve (v : Service) (s : Store) :
    List (Operation × Request) → List (Except Problem Value) × Store
  | [] => ([], s)
  | (op, r) :: requests =>
    let (answer, s') := v.dispatch s op r
    let (answers, s'') := serve v s' requests
    (answer :: answers, s'')

/-- What several requests may do to a directory, and what they answer. -/
inductive Run (v : Service) (t : Table) (key : Column) :
    Directory → List (Operation × Request) → List (Except Problem Value) → Directory → Prop where
  | done {D : Directory} : Run v t key D [] [] D
  | step {D D' D'' : Directory} {op : Operation} {r : Request} {answer : Except Problem Value}
    {requests : List (Operation × Request)} {answers : List (Except Problem Value)}
    (first : Step v t key D r op answer D') (rest : Run v t key D' requests answers D'') :
    Run v t key D ((op, r) :: requests) (answer :: answers) D''

theorem run_of_content (hv : v.Keeps t key) {requests : List (Operation × Request)}
    (hrequests : ∀ p ∈ requests, IsRowRequest key p.1 p.2) (hs : Content t key s) :
    Run v t key (s.directory key) requests (v.serve s requests).1
        ((v.serve s requests).2.directory key) ∧ Content t key (v.serve s requests).2 := by
  -- The content carries the induction: a step is only known of a store whose rows are entries.
  induction requests generalizing s with
  | nil => exact ⟨.done, hs⟩
  | cons p requests ih =>
    obtain ⟨hp, hrequests⟩ := List.forall_mem_cons.mp hrequests
    obtain ⟨hstep, hafter⟩ := dispatch_step hv hs hp
    obtain ⟨hrun, hend⟩ := ih hrequests hafter
    exact ⟨.step hstep hrun, hend⟩

/-- **Requests on one row run a finite map.** Take a keyed table under generated schemas, any
content with distinct keys whose rows can be answered, and any sequence of creations, retrievals,
updates and deletions that address keys. The answers, and the directory of the table after them, are
those of a run over the directory of the table before. The content after them is again such a
content. -/
theorem serve_runs_directory (hv : v.Keeps t key) (hs : s.IsDirectory t key)
    (hrows : ∀ row ∈ s.rows, ∃ a, v.rowAnswer row = .ok a) {requests : List (Operation × Request)}
    (hrequests : ∀ p ∈ requests, IsRowRequest key p.1 p.2) :
    Run v t key (s.directory key) requests (v.serve s requests).1
        ((v.serve s requests).2.directory key) ∧
      (v.serve s requests).2.IsDirectory t key ∧
        ∀ row ∈ (v.serve s requests).2.rows, ∃ a, v.rowAnswer row = .ok a := by
  have hcontent : Content t key s := ⟨hs, fun row hrow => by
    obtain ⟨a, ha⟩ := hrows row hrow
    exact readable_of_rowAnswer hv.keyed hv.table_eq hv.schemas ha⟩
  obtain ⟨hrun, hafter⟩ := run_of_content hv hrequests hcontent
  exact ⟨hrun, hafter.directory, fun row hrow =>
    ⟨_, rowAnswer_eq hv.keyed hv.table_eq hv.schemas (hafter.readable row hrow)⟩⟩

/-! ## 6. A run -/

/-- The key column of a shelf of books. -/
def bookKey : Column := ⟨['i', 'd'], .integer, true, false, none, none, none, false⟩

/-- A shelf of books: each has a number, a title, and how many copies there are. -/
def books : Table where
  name := ['b']
  columns := [
    bookKey,
    ⟨['t'], .string, false, false, none, none, none, false⟩,
    ⟨['n'], .integer, false, true, some (.integer 1), none, none, false⟩]

/-- A service of books. -/
def bookService : Service where
  binding := .ofOptions books {}

/-- A shelf with one book. -/
def oneBook : Store :=
  .ofRows books [⟨3, [(['i', 'd'], .integer 3), (['t'], .text ['a']), (['n'], .null)]⟩]

/-- A request for a book by its number, with a body. -/
def bookRequest (path body : Members) : Request := ⟨[], path, .object body⟩

/-- A book is added, the first book takes another number, a book is added under that number, and the
first book is asked for and deleted. -/
def bookRequests : List (Operation × Request) := [
  (.create, bookRequest [] [(['t'], .text ['b'])]),
  (.update, bookRequest [(['i', 'd'], .text ['3'])] [(['i', 'd'], .integer 7)]),
  (.create, bookRequest [] [(['i', 'd'], .integer 7), (['t'], .text ['c'])]),
  (.retrieve, bookRequest [(['i', 'd'], .integer 3)] []),
  (.destroy, bookRequest [(['i', 'd'], .integer 7)] [])]

theorem keyed_books : books.IsKeyed bookKey where
  names := by decide
  plain := by decide
  primaryKey := rfl
  keyType := .inl rfl
  keyFilled := rfl
  unique := by decide
  fallback := by simp [books, bookKey, ColumnType.Holds]
  serverDefault := by simp [books, bookKey]

theorem keeps_books : bookService.Keeps books bookKey where
  bound := ⟨.standard, {}, rfl, rfl⟩
  keys := rfl
  keyed := keyed_books
  exposed := by decide
  builtIn := fun _ _ => rfl
  whole := rfl

theorem isDirectory_oneBook : oneBook.IsDirectory books bookKey where
  table_eq := rfl
  present := rfl
  ordered := List.pairwise_singleton _ _
  entries := fun row hrow => by
    obtain rfl := List.mem_singleton.mp hrow
    exact ⟨by decide, fun _ => rfl, trivial⟩
  distinct := List.nodup_singleton _

theorem isRowRequest_books : ∀ p ∈ bookRequests, IsRowRequest bookKey p.1 p.2 := by
  have hthree : Addresses bookKey (bookRequest [(['i', 'd'], .integer 3)] []) (.integer 3) :=
    ⟨⟨_, rfl, rfl⟩, rfl⟩
  have hspelled : Addresses bookKey
      (bookRequest [(['i', 'd'], .text ['3'])] [(['i', 'd'], .integer 7)]) (.integer 3) :=
    ⟨⟨_, rfl, rfl⟩, rfl⟩
  have hseven : Addresses bookKey (bookRequest [(['i', 'd'], .integer 7)] []) (.integer 7) :=
    ⟨⟨_, rfl, rfl⟩, rfl⟩
  simp only [bookRequests, List.forall_mem_cons]
  refine ⟨⟨by decide, fun h => absurd h (by decide)⟩, ⟨by decide, fun _ => ⟨_, hspelled⟩⟩,
    ⟨by decide, fun h => absurd h (by decide)⟩, ⟨by decide, fun _ => ⟨_, hthree⟩⟩,
    ⟨by decide, fun _ => ⟨_, hseven⟩⟩, ?_⟩
  exact fun _ h => absurd h List.not_mem_nil

theorem serve_runs_directory_books :
    (bookService.Keeps books bookKey ∧ oneBook.IsDirectory books bookKey ∧
        (∀ row ∈ oneBook.rows, ∃ a, bookService.rowAnswer row = .ok a) ∧
        ∀ p ∈ bookRequests, IsRowRequest bookKey p.1 p.2) ∧
      Run bookService books bookKey (oneBook.directory bookKey) bookRequests
          (bookService.serve oneBook bookRequests).1
          ((bookService.serve oneBook bookRequests).2.directory bookKey) ∧
        (bookService.serve oneBook bookRequests).2.IsDirectory books bookKey ∧
          ∀ row ∈ (bookService.serve oneBook bookRequests).2.rows,
            ∃ a, bookService.rowAnswer row = .ok a := by
  have hrows : ∀ row ∈ oneBook.rows, ∃ a, bookService.rowAnswer row = .ok a := fun row hrow => by
    obtain rfl := List.mem_singleton.mp hrow
    exact ⟨_, rfl⟩
  exact ⟨⟨keeps_books, isDirectory_oneBook, hrows, isRowRequest_books⟩,
    serve_runs_directory keeps_books isDirectory_oneBook hrows isRowRequest_books⟩

end Service
end TableService
