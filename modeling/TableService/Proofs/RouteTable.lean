import Mathlib.Data.List.Nodup
import TableService.Http.Exchange
import TableService.Proofs.Bindings
import TableService.Proofs.Outcomes
import TableService.Proofs.PathTemplates

/-!
# Where requests are led

The routes of a service overlap: three lookup columns make up to three paths for single rows, and an
action may have any path and any methods. A request is led to the first route that fits, so what is
said of the table rests on **the order of its two parts**:

> first the routes of the collection, then the routes of single rows.

A request that fits anywhere in the first part never comes to the second, and between them the parts
leave out no operation and no action (`Route.mem_table`). In the second, the path of every route has
one parameter, the lookup column of what the route leads to, so the value that the endpoint looks up
is in the path of every request that is led to it.

An action is found again by its name. That this is the action of the route is an invariant of
services: no two actions have the same name (`Service.IsBuilt.nodup_actions`).
-/

namespace TableService

/-! ## 1. Services and their actions -/

/-- A service as it comes about: it is created, then operations are replaced and actions added. -/
inductive Service.IsBuilt : Service → Prop where
  | created {b : Binding} {search : SearchBackend} {operations : OperationChoice}
      {handlers : List (Text × Handler)} {declared added : List BoundAction} {v : Service}
      (h : Service.create b search operations handlers declared added = .ok v) : IsBuilt v
  | overridden {v v' : Service} {operation : Text} {handler : Handler} (hv : IsBuilt v)
      (h : v.override operation handler = .ok v') : IsBuilt v'
  | extended {v : Service} (hv : IsBuilt v) (a : BoundAction) : IsBuilt (v.addAction a)

namespace BoundAction

/-- The names of some actions. -/
def names (as : List BoundAction) : List Text := as.map fun a => a.name

theorem names_put (a : BoundAction) (as : List BoundAction) :
    names (a.put as) = if a.name ∈ names as then names as else names as ++ [a.name] := by
  induction as with
  | nil => rfl
  | cons b as ih =>
    rw [put]
    by_cases hname : b.name = a.name
    · rw [if_pos hname, if_pos (hname ▸ List.mem_cons_self)]
      exact congrArg (· :: names as) hname.symm
    · have hmem : a.name ∈ names (b :: as) ↔ a.name ∈ names as := by
        simp [names, Ne.symm hname]
      rw [if_neg hname]
      simp only [hmem]
      show b.name :: names (a.put as) = _
      rw [ih]
      split <;> rfl

/-- Putting an action among others gives no name to two of them. -/
theorem nodup_put {as : List BoundAction} (h : (names as).Nodup) (a : BoundAction) :
    (names (a.put as)).Nodup := by
  rw [names_put]
  split
  · exact h
  · next hname =>
    rw [← List.concat_eq_append]
    exact h.concat hname

theorem nodup_putAll {as : List BoundAction} (h : (names as).Nodup) (bs : List BoundAction) :
    (names (bs.foldl (fun before a => a.put before) as)).Nodup := by
  induction bs generalizing as with
  | nil => exact h
  | cons b bs ih => exact ih (nodup_put h b)

end BoundAction

namespace Service

variable {v : Service}

/-- **No two actions of a service have the same name.** -/
theorem IsBuilt.nodup_actions (h : v.IsBuilt) : (BoundAction.names v.actions).Nodup := by
  induction h with
  | created h =>
    simp only [create, Outcome.bind_eq_ok] at h
    obtain ⟨_, -, _, -, _, -, _, -, _, -, hv⟩ := h
    cases hv
    exact @BoundAction.nodup_putAll [] List.nodup_nil _
  | overridden hv h ih =>
    simp only [override, Outcome.bind_eq_ok] at h
    obtain ⟨_, -, _, -, hv'⟩ := h
    cases hv'
    exact ih
  | extended hv a ih => exact BoundAction.nodup_put ih a

/-- An action is found again by its name. -/
theorem action?_of_mem (h : (BoundAction.names v.actions).Nodup) {a : BoundAction}
    (ha : a ∈ v.actions) : v.action? a.name = some a := by
  cases hfound : v.action? a.name with
  | none =>
    have hnone := List.find?_eq_none.mp hfound a ha
    exact absurd (beq_self_eq_true a.name) hnone
  | some b =>
    have hname : b.name = a.name := by simpa using List.find?_some hfound
    have hb : b ∈ v.actions := List.mem_of_find?_eq_some hfound
    rw [List.inj_on_of_nodup_map h hb ha hname]

end Service

/-! ## 2. Values of the path -/

namespace Convert

variable {t : Text} {e : FieldFault}

theorem explanation_of_readInt (h : readInt t = .error e) : e.explanation = none := by
  unfold readInt at h
  dsimp only at h
  repeat' split at h
  all_goals
    cases h
    try rfl

theorem explanation_of_readDecimal (h : readDecimal t = .error e) : e.explanation = none := by
  unfold readDecimal at h
  repeat' split at h
  all_goals
    cases h
    try rfl

theorem explanation_of_readDate (h : readDate (.text t) = .error e) : e.explanation = none := by
  simp only [readDate, momentOr, dateOfMoment] at h
  repeat' split at h
  all_goals
    cases h
    try rfl

theorem explanation_of_readMoment (h : readMoment (.text t) = .error e) :
    e.explanation = none := by
  simp only [readMoment] at h
  repeat' split at h
  all_goals
    cases h
    try rfl

/-- A text that is not taken for a value of a kind has a fault without an explanation. -/
theorem explanation_of_toKind {kind : FieldKind} (h : toKind kind (.text t) = .error e) :
    e.explanation = none := by
  cases kind with
  | str | object | anything => cases h
  | list =>
    cases h
    rfl
  | int => exact explanation_of_readInt (Outcome.map_eq_error.mp h)
  | decimal => exact explanation_of_readDecimal (Outcome.map_eq_error.mp h)
  | bool =>
    have h := Outcome.map_eq_error.mp h
    simp only [toBool] at h
    split at h
    · cases h
    · cases h
      rfl
  | float =>
    have h := Outcome.map_eq_error.mp h
    simp only [toFloat] at h
    repeat' split at h
    all_goals
      cases h
      try rfl
  | date =>
    have h := Outcome.map_eq_error.mp h
    unfold toDate at h
    split at h
    · split at h
      · cases h
      · cases h
        rfl
    · next hread =>
      cases h
      exact explanation_of_readDate hread
  | dateTime =>
    have h := Outcome.map_eq_error.mp h
    unfold toMoment at h
    split at h
    · split at h
      · cases h
      · cases h
        rfl
    · next hread =>
      cases h
      exact explanation_of_readMoment hread

end Convert

namespace Service

variable {v : Service}

/-- The problem of a request without the value of a lookup column in its path. -/
def missingParameter (v : Service) (c : Column) : Problem :=
  .ofFieldErrors [⟨c.name, .missingPathParameter⟩] pathSchema (some v.name)

/-- A value in the path is looked up or refused for itself, never missed. -/
theorem pathValue_ne_missing {c : Column} {r : Request} {t : Text}
    (h : r.path.lookup c.name = some (.text t)) (d : Column) :
    v.pathValue c r ≠ .error (v.missingParameter d) := by
  intro hmissing
  unfold pathValue at hmissing
  rcases Outcome.bind_eq_error.mp hmissing with hrequire | ⟨-, -, hmissing⟩
  · unfold require requireAmong at hrequire
    split at hrequire
    · cases hrequire
    · cases hrequire
  · rw [h] at hmissing
    dsimp only at hmissing
    unfold Column.lookupValue at hmissing
    split at hmissing
    · cases hmissing
    · next e hkind =>
      have hplain := Convert.explanation_of_toKind hkind
      -- Its entry has no message, and that of a missing parameter has one.
      simp only [missingParameter, Problem.ofFieldErrors, List.map_singleton, FieldError.toValue,
        hplain, Except.error.injEq, Problem.schema.injEq] at hmissing
      have hmembers := Value.object.inj (List.head_eq_of_cons_eq hmissing.1)
      exact absurd (congrArg List.length hmembers) (by simp [FieldFault.explanation])

end Service

/-! ## 3. What a route leads to -/

namespace Http

open PathTemplate (IsLiteral IsPlain IsSegment)

/-- Whether a route leads to something about the whole collection. -/
inductive Endpoint.OnCollection (v : Service) : Endpoint → Prop where
  | operation {op : Operation} (h : op ∈ Route.collectionOperations) :
      OnCollection v (.operation op)
  | action {a : BoundAction} (h : v.action? a.name = some a) (hdetail : a.detail = false) :
      OnCollection v (.action a.name)

/-- Whether a route leads to something about one row, which is found by a column. -/
inductive Endpoint.OnRow (v : Service) : Endpoint → Column → Prop where
  | operation {op : Operation} {c : Column} (h : v.binding.keys.column? op = some c) :
      OnRow v (.operation op) c
  | action {a : BoundAction} (h : v.action? a.name = some a) (hdetail : a.detail = true) :
      OnRow v (.action a.name) v.binding.keys.retrieve

variable {v : Service}

theorem Endpoint.OnCollection.not_onRow {e : Endpoint} (h : e.OnCollection v) (c : Column) :
    ¬ e.OnRow v c := by
  intro hrow
  cases h with
  | @operation op hop =>
    cases hrow with
    | operation hcolumn =>
      cases op <;> first
        | exact absurd hop (by decide)
        | cases hcolumn
  | @action a ha hdetail =>
    generalize hname : a.name = name at hrow
    cases hrow with
    | @action b hb hdetail' =>
      rw [hname, hb] at ha
      cases ha
      rw [hdetail] at hdetail'
      cases hdetail'

theorem Endpoint.OnRow.unique {e : Endpoint} {c d : Column} (hc : e.OnRow v c) (hd : e.OnRow v d) :
    c = d := by
  cases hc with
  | operation hc =>
    cases hd with
    | operation hd => exact Option.some.inj (hc.symm.trans hd)
  | @action a ha hdetail =>
    generalize hname : a.name = name at hd
    cases hd
    rfl

namespace Route

/-- Whether paths have parameters only where the service puts them: nothing that it was given opens
a brace, and the lookup columns have names that stand between braces. -/
structure IsRoutable (v : Service) (base : Option Text) : Prop where
  base : IsLiteral (basePath v base)
  actions : ∀ a ∈ v.actions, IsLiteral a.path
  columns : ∀ op c, v.binding.keys.column? op = some c → PathTemplate.isName c.name = true

/-- The routes of the collection. -/
def collectionRoutes (v : Service) (base : Text) (selected : List Operation) : List Route :=
  (collectionOperations.filter (· ∈ selected)).flatMap (routesOf v base)
    ++ (v.actions.filter (!·.detail)).map (below v base)

/-- The routes of single rows. -/
def rowRoutes (v : Service) (base : Text) (selected : List Operation) : List Route :=
  (Operation.details.filter (· ∈ selected)).flatMap (routesOf v base)
    ++ (v.actions.filter (·.detail)).map (below v (rowPath base v.binding.keys.retrieve))

theorem table_eq (v : Service) (base : Text) (selected : List Operation) :
    table v base selected = collectionRoutes v base selected ++ rowRoutes v base selected := by
  unfold table collectionRoutes rowRoutes
  dsimp only
  rw [List.append_assoc]

theorem mem_parts (op : Operation) : op ∈ collectionOperations ∨ op ∈ Operation.details := by
  cases op <;> decide

/-- **The table has a route for everything** that there is to lead to, and no others: the routes of
each selected operation, and for each action one below what it is about. -/
theorem mem_table {v : Service} {base : Text} {selected : List Operation} {r : Route} :
    r ∈ table v base selected ↔
      (∃ op ∈ selected, r ∈ routesOf v base op) ∨
        ∃ a ∈ v.actions,
          r = below v (if a.detail then rowPath base v.binding.keys.retrieve else base) a := by
  rw [table_eq]
  simp only [collectionRoutes, rowRoutes, List.mem_append, List.mem_flatMap, List.mem_filter,
    List.mem_map, decide_eq_true_eq]
  constructor
  · rintro ((⟨op, ⟨-, hop⟩, hr⟩ | ⟨a, ⟨ha, hdetail⟩, rfl⟩) |
      (⟨op, ⟨-, hop⟩, hr⟩ | ⟨a, ⟨ha, hdetail⟩, rfl⟩))
    · exact .inl ⟨op, hop, hr⟩
    · exact .inr ⟨a, ha, by rw [if_neg (by simpa using hdetail)]⟩
    · exact .inl ⟨op, hop, hr⟩
    · exact .inr ⟨a, ha, by rw [if_pos hdetail]⟩
  · rintro (⟨op, hop, hr⟩ | ⟨a, ha, rfl⟩)
    · rcases mem_parts op with hpart | hpart
      · exact .inl (.inl ⟨op, ⟨hpart, hop⟩, hr⟩)
      · exact .inr (.inl ⟨op, ⟨hpart, hop⟩, hr⟩)
    · cases hdetail : a.detail with
      | false => exact .inl (.inr ⟨a, ⟨ha, by simp [hdetail]⟩, by simp⟩)
      | true => exact .inr (.inr ⟨a, ⟨ha, hdetail⟩, by simp⟩)

/-- What the table has in its first part. -/
structure IsOfCollection (v : Service) (selected : List Operation) (r : Route) : Prop where
  endpoint : r.endpoint.OnCollection v
  literal : IsLiteral r.path
  selected : ∀ op, r.endpoint = .operation op → op ∈ selected

/-- What the table has in its second part. -/
structure IsOfRow (v : Service) (selected : List Operation) (r : Route) (c : Column) : Prop where
  endpoint : r.endpoint.OnRow v c
  path : ∃ front rest, r.path = front ++ '{' :: (c.name ++ '}' :: rest) ∧ IsLiteral front ∧
    IsLiteral rest
  name : PathTemplate.isName c.name = true
  selected : ∀ op, r.endpoint = .operation op → op ∈ selected

variable {base : Text} {selected : List Operation} {r : Route}

theorem mem_routesOf_collection {op : Operation} (hop : op ∈ collectionOperations)
    (hr : r ∈ routesOf v base op) :
    r.endpoint = .operation op ∧
      (r.path = collectionPath base ∨ r.path = base ++ Text.ofString "/search") := by
  cases op with
  | list | create =>
    obtain rfl := List.mem_singleton.mp hr
    exact ⟨rfl, .inl rfl⟩
  | search =>
    obtain rfl := List.mem_singleton.mp hr
    exact ⟨rfl, .inr rfl⟩
  | retrieve | update | destroy => exact absurd hop (by decide)

theorem mem_routesOf_details {op : Operation} (hop : op ∈ Operation.details)
    (hr : r ∈ routesOf v base op) :
    r.endpoint = .operation op ∧
      ∃ c, v.binding.keys.column? op = some c ∧ r.path = rowPath base c := by
  cases op with
  | list | create | search => exact absurd hop (by decide)
  | retrieve | destroy =>
    obtain rfl := List.mem_singleton.mp hr
    exact ⟨rfl, _, rfl, rfl⟩
  | update =>
    rcases List.mem_pair.mp hr with rfl | rfl
    · exact ⟨rfl, _, rfl, rfl⟩
    · exact ⟨rfl, _, rfl, rfl⟩

theorem isLiteral_append {s t : Text} (hs : IsLiteral s) (ht : IsLiteral t) :
    IsLiteral (s ++ t) := by
  intro hbrace
  exact (List.mem_append.mp hbrace).elim hs ht

theorem isLiteral_below {s t : Text} (hs : IsLiteral s) (ht : IsLiteral t) :
    IsLiteral (s ++ '/' :: t) := by
  have hslash : IsLiteral ['/'] := by
    show '{' ∉ ['/']
    decide
  exact isLiteral_append hs (isLiteral_append hslash ht)

theorem isLiteral_collectionPath (h : IsLiteral base) : IsLiteral (collectionPath base) := by
  unfold collectionPath
  split
  · show '{' ∉ ['/']
    decide
  · exact h

theorem checkPaths_eq_ok {rs : List Route}
    (h : ∀ r ∈ rs, IsPlain r.template ∧ (PathTemplate.parameters r.template).Nodup) :
    checkPaths rs = .ok () := by
  induction rs with
  | nil => rfl
  | cons r rs ih =>
    obtain ⟨⟨hplain, hnodup⟩, hrs⟩ := List.forall_mem_cons.mp h
    rw [checkPaths, if_pos (PathTemplate.hasKnownKinds_of_isPlain hplain),
      PathTemplate.repeated_eq_nil hnodup]
    exact ih hrs

theorem IsOfCollection.parameters_eq (h : IsOfCollection v selected r) :
    IsPlain r.template ∧ PathTemplate.parameters r.template = [] := by
  rw [template, PathTemplate.read_literal h.literal]
  exact ⟨PathTemplate.isPlain_plain r.path, PathTemplate.parameters_plain r.path⟩

theorem IsOfRow.parameters_eq {c : Column} (h : IsOfRow v selected r c) :
    IsPlain r.template ∧ PathTemplate.parameters r.template = [c.name] := by
  obtain ⟨front, rest, hpath, hfront, hrest⟩ := h.path
  have hread : r.template
      = front.map .plain ++ .parameter c.name PathTemplate.plainKind :: rest.map .plain := by
    rw [template, hpath, PathTemplate.read_append hfront, PathTemplate.read_parameter h.name,
      PathTemplate.read_literal hrest]
  rw [hread]
  constructor
  · intro name kind hmem
    rcases List.mem_append.mp hmem with hmem | hmem
    · exact PathTemplate.isPlain_plain front name kind hmem
    · rcases List.mem_cons.mp hmem with heq | hmem
      · cases heq
        rfl
      · exact PathTemplate.isPlain_plain rest name kind hmem
  · rw [PathTemplate.parameters_append, PathTemplate.parameters_plain, PathTemplate.parameters,
      PathTemplate.parameters_plain]
    rfl

/-! ## 4. The two parts of a table -/

section
variable {given : Option Text} (hv : (BoundAction.names v.actions).Nodup) (h : IsRoutable v given)
include hv h

/-- **The routes of the collection** lead to the collection, and their paths have no parameters. -/
theorem isOfCollection_of_mem (hr : r ∈ collectionRoutes v (basePath v given) selected) :
    IsOfCollection v selected r := by
  rcases List.mem_append.mp hr with hr | hr
  · obtain ⟨op, hop, hr⟩ := List.mem_flatMap.mp hr
    obtain ⟨hop, hselected⟩ := List.mem_filter.mp hop
    obtain ⟨hendpoint, hpath⟩ := mem_routesOf_collection hop hr
    refine ⟨hendpoint ▸ .operation hop, ?_, ?_⟩
    · rcases hpath with hpath | hpath
      · rw [hpath]
        exact isLiteral_collectionPath h.base
      · rw [hpath]
        apply isLiteral_append h.base
        show '{' ∉ Text.ofString "/search"
        decide
    · intro op' heq
      rw [hendpoint] at heq
      cases heq
      exact of_decide_eq_true hselected
  · obtain ⟨a, ha, rfl⟩ := List.mem_map.mp hr
    obtain ⟨ha, hdetail⟩ := List.mem_filter.mp ha
    refine ⟨.action (Service.action?_of_mem hv ha) (by simpa using hdetail), ?_, ?_⟩
    · exact isLiteral_below h.base (h.actions a ha)
    · intro op heq
      cases heq

/-- **The routes of single rows** lead to something about a row, and the column by which it is found
is the one parameter of their paths. -/
theorem isOfRow_of_mem (hr : r ∈ rowRoutes v (basePath v given) selected) :
    ∃ c, IsOfRow v selected r c := by
  have hslash : IsLiteral (basePath v given ++ ['/']) := isLiteral_below h.base List.not_mem_nil
  rcases List.mem_append.mp hr with hr | hr
  · obtain ⟨op, hop, hr⟩ := List.mem_flatMap.mp hr
    obtain ⟨hop, hselected⟩ := List.mem_filter.mp hop
    obtain ⟨hendpoint, c, hcolumn, hpath⟩ := mem_routesOf_details hop hr
    refine ⟨c, hendpoint ▸ .operation hcolumn,
      ⟨basePath v given ++ ['/'], [], ?_, hslash, List.not_mem_nil⟩, h.columns op c hcolumn, ?_⟩
    · rw [hpath]
      simp [rowPath]
    · intro op' heq
      rw [hendpoint] at heq
      cases heq
      exact of_decide_eq_true hselected
  · obtain ⟨a, ha, rfl⟩ := List.mem_map.mp hr
    obtain ⟨ha, hdetail⟩ := List.mem_filter.mp ha
    refine ⟨v.binding.keys.retrieve, .action (Service.action?_of_mem hv ha) hdetail,
      ⟨basePath v given ++ ['/'], '/' :: a.path, ?_, hslash, ?_⟩, h.columns .retrieve _ rfl, ?_⟩
    · show rowPath (basePath v given) v.binding.keys.retrieve ++ '/' :: a.path = _
      simp [rowPath]
    · exact isLiteral_below List.not_mem_nil (h.actions a ha)
    · intro op heq
      cases heq

/-- **Registering succeeds**, if there are operations to select. -/
theorem register_eq_ok {subset : OperationChoice} {ops : List Operation}
    (hops : subset.resolve = .ok ops) :
    register v given subset = .ok (table v (basePath v given) (ops.filter (· ∈ v.exposed))) := by
  have hcheck : checkPaths (table v (basePath v given) (ops.filter (· ∈ v.exposed))) = .ok () := by
    apply checkPaths_eq_ok
    intro r hr
    rw [table_eq] at hr
    rcases List.mem_append.mp hr with hr | hr
    · obtain ⟨hplain, hnames⟩ := (isOfCollection_of_mem hv h hr).parameters_eq
      exact ⟨hplain, hnames ▸ List.nodup_nil⟩
    · obtain ⟨c, hc⟩ := isOfRow_of_mem hv h hr
      obtain ⟨hplain, hnames⟩ := hc.parameters_eq
      exact ⟨hplain, hnames ▸ List.nodup_singleton c.name⟩
  rw [register, hops]
  dsimp only
  rw [hcheck]

end

theorem eq_table_of_register {given : Option Text} {subset : OperationChoice} {ops : List Operation}
    {routes : List Route} (hops : subset.resolve = .ok ops)
    (h : register v given subset = .ok routes) :
    routes = table v (basePath v given) (ops.filter (· ∈ v.exposed)) := by
  unfold register at h
  rw [hops] at h
  dsimp only at h
  split at h
  · cases h
  · exact (Except.ok.inj h).symm

/-- Whether routes leave nothing out: there is one to every operation that is selected and exposed,
and one to every action. -/
structure Covers (v : Service) (ops : List Operation) (rs : List Route) : Prop where
  operations : ∀ op ∈ ops, op ∈ v.exposed → ∃ r ∈ rs, r.endpoint = .operation op
  actions : ∀ a ∈ v.actions, ∃ r ∈ rs, r.endpoint = .action a.name

/-- **Registering leaves nothing out.** -/
theorem covers_of_register {given : Option Text} {subset : OperationChoice} {ops : List Operation}
    {routes : List Route} (hops : subset.resolve = .ok ops)
    (h : register v given subset = .ok routes) : Covers v ops routes := by
  obtain rfl := eq_table_of_register hops h
  refine ⟨fun op hop hexposed => ?_, fun a ha => ⟨_, mem_table.mpr (.inr ⟨a, ha, rfl⟩), rfl⟩⟩
  have hselected : op ∈ ops.filter (· ∈ v.exposed) :=
    List.mem_filter.mpr ⟨hop, decide_eq_true hexposed⟩
  have hroute : ∃ r ∈ routesOf v (basePath v given) op, r.endpoint = .operation op := by
    cases op <;> exact ⟨_, List.mem_cons_self, rfl⟩
  obtain ⟨r, hr, hendpoint⟩ := hroute
  exact ⟨r, mem_table.mpr (.inl ⟨op, hselected, hr⟩), hendpoint⟩

end Route

/-! ## 5. Finding a route -/

section
variable {rs : List Route} {r : Route} {method path : Text} {vs : Members}

/-- A route that is found is one of the routes, and it fits. -/
theorem mem_of_findRoute (h : findRoute rs method path = some (r, vs)) :
    r ∈ rs ∧ method ∈ r.methods ∧ r.template.values? path = some vs := by
  obtain ⟨r', hr', h⟩ := List.exists_of_findSome?_eq_some h
  split at h
  · next hmethod =>
    obtain ⟨us, hus, heq⟩ := Option.map_eq_some_iff.mp h
    cases heq
    exact ⟨hr', hmethod, hus⟩
  · cases h

/-- Where a route fits, one is found. -/
theorem exists_findRoute (hr : r ∈ rs) (hmethod : method ∈ r.methods)
    (hpath : r.template.accepts path = true) : ∃ found, findRoute rs method path = some found := by
  apply Option.isSome_iff_exists.mp
  apply List.findSome?_isSome_iff.mpr
  refine ⟨r, hr, ?_⟩
  rw [if_pos hmethod, Option.isSome_map]
  exact hpath

theorem findRoute_append {front back : List Route} :
    findRoute (front ++ back) method path
      = (findRoute front method path).or (findRoute back method path) := List.findSome?_append

end

/-- How a request is led by the routes of a service of which some operations were selected.

* Where a route of the collection fits, the request is led to the collection, never to a row.
* An operation that is reached was selected and is exposed.
* An endpoint about a row has the value of its lookup column in the path, a text without slashes
  that is not empty, and it does not come upon a missing parameter. -/
structure IsDispatched (v : Service) (ops : List Operation) (rs : List Route)
    (method path : Text) : Prop where
  collection : ∀ r ∈ rs, r.endpoint.OnCollection v → method ∈ r.methods →
    r.template.accepts path = true → ∃ r' vs, findRoute rs method path = some (r', vs) ∧
      r'.endpoint.OnCollection v ∧ ∀ c, ¬ r'.endpoint.OnRow v c
  selected : ∀ r vs, findRoute rs method path = some (r, vs) → ∀ op,
    r.endpoint = .operation op → op ∈ ops ∧ op ∈ v.exposed
  row : ∀ r vs, findRoute rs method path = some (r, vs) → ∀ c, r.endpoint.OnRow v c →
    (∃ t : Text, vs.lookup c.name = some (.text t) ∧ t ≠ [] ∧ '/' ∉ t) ∧
      ∀ query body d, v.pathValue c ⟨query, vs, body⟩ ≠ .error (v.missingParameter d)

/-- A table whose first part is about the collection and whose second is about rows leads requests
so, by the order of its parts. -/
theorem isDispatched_append {ops selected : List Operation} {front back : List Route}
    (hselected : ∀ op ∈ selected, op ∈ ops ∧ op ∈ v.exposed)
    (hfront : ∀ r ∈ front, Route.IsOfCollection v selected r)
    (hback : ∀ r ∈ back, ∃ c, Route.IsOfRow v selected r c) (method path : Text) :
    IsDispatched v ops (front ++ back) method path where
  collection := by
    intro r hr hcollection hmethod hpath
    have hmem : r ∈ front := by
      rcases List.mem_append.mp hr with hr | hr
      · exact hr
      · obtain ⟨c, hc⟩ := hback r hr
        exact absurd hc.endpoint (hcollection.not_onRow c)
    obtain ⟨⟨r', vs⟩, hfound⟩ := exists_findRoute hmem hmethod hpath
    have hcollection' := (hfront r' (mem_of_findRoute hfound).1).endpoint
    refine ⟨r', vs, ?_, hcollection', hcollection'.not_onRow⟩
    rw [findRoute_append, hfound, Option.some_or]
  selected := by
    intro r vs hfound op hendpoint
    apply hselected
    rcases List.mem_append.mp (mem_of_findRoute hfound).1 with hr | hr
    · exact (hfront r hr).selected op hendpoint
    · obtain ⟨c, hc⟩ := hback r hr
      exact hc.selected op hendpoint
  row := by
    intro r vs hfound c hrow
    obtain ⟨hr, -, hvalues⟩ := mem_of_findRoute hfound
    have hmem : r ∈ back := by
      rcases List.mem_append.mp hr with hr | hr
      · exact absurd hrow ((hfront r hr).endpoint.not_onRow c)
      · exact hr
    obtain ⟨d, hd⟩ := hback r hmem
    obtain rfl := hrow.unique hd.endpoint
    obtain ⟨hplain, hnames⟩ := hd.parameters_eq
    obtain ⟨x, rfl⟩ : ∃ x, vs = [(c.name, x)] := by
      have hvs := PathTemplate.names_of_values? hvalues
      rw [hnames] at hvs
      obtain ⟨e, rfl, hname⟩ := List.map_eq_singleton_iff.mp hvs
      exact ⟨e.2, hname ▸ rfl⟩
    obtain ⟨t, rfl, hne, hslash⟩ :=
      PathTemplate.isSegment_of_values? hplain hvalues _ List.mem_cons_self
    have hlookup : List.lookup c.name [(c.name, Value.text t)] = some (.text t) :=
      List.lookup_cons_self
    refine ⟨⟨t, hlookup, hne, hslash⟩, ?_⟩
    intro query body d
    exact Service.pathValue_ne_missing hlookup d

/-- **Where requests are led.** The routes of a service are registered and leave nothing out, and
they lead every request to the collection first, to what was selected only, and to a row with the
value it is found by. -/
theorem register_dispatches (hv : v.IsBuilt) {given : Option Text}
    (h : Route.IsRoutable v given) {subset : OperationChoice} {ops : List Operation}
    (hops : subset.resolve = .ok ops) :
    ∃ routes, Route.register v given subset = .ok routes ∧ Route.Covers v ops routes ∧
      ∀ method path, IsDispatched v ops routes method path := by
  have hregister := Route.register_eq_ok hv.nodup_actions h hops
  refine ⟨_, hregister, Route.covers_of_register hops hregister, ?_⟩
  intro method path
  rw [Route.table_eq]
  apply isDispatched_append
  · intro op hop
    obtain ⟨hop, hexposed⟩ := List.mem_filter.mp hop
    exact ⟨hop, of_decide_eq_true hexposed⟩
  · intro r hr
    exact Route.isOfCollection_of_mem hv.nodup_actions h hr
  · intro r hr
    exact Route.isOfRow_of_mem hv.nodup_actions h hr

/-- Members, who are found by a number, changed by a name and removed by a code. -/
def members : Table where
  name := ['m']
  columns := [
    ⟨['i', 'd'], .integer, true, false, none, none, none, false⟩,
    ⟨['n'], .string, false, false, none, none, none, true⟩,
    ⟨['c'], .string, false, false, none, none, none, true⟩]

def memberOptions : BindingOptions where
  keyPolicy := ⟨none, some ['n'], some ['c'], some ['i', 'd']⟩

def memberBinding : Binding := .ofOptions members memberOptions

/-- An action on all members, under a path that fits the number of one, and an action on one. -/
def memberActions : List BoundAction := [
  ⟨.build ['t', 'o', 'p'] none none false, fun _ => .ok .null⟩,
  ⟨.build ['b', 'a', 'n'] none (some [['P', 'O', 'S', 'T']]) true, fun _ => .ok .null⟩]

/-- A service of members, who cannot be removed. -/
def memberService : Service where
  binding := memberBinding
  exposed := [.list, .create, .retrieve, .update, .search]
  actions := memberActions

theorem isBuilt_memberService : memberService.IsBuilt := by
  have hactions : Service.collectActions [] memberActions = memberActions := by
    rw [Service.collectActions, List.mergeSort_nil]
    rfl
  have hcreate : Service.create memberBinding .nothing
      (.names (memberService.exposed.map Operation.name)) [] [] memberActions
        = .ok memberService := by
    show Except.ok _ = _
    simp only [List.map_nil, hactions]
    rfl
  exact .created hcreate

theorem isRoutable_memberService : Route.IsRoutable memberService none where
  base := by
    show '{' ∉ Route.basePath memberService none
    decide
  actions := by
    show ∀ a ∈ memberActions, '{' ∉ a.path
    decide
  columns := by
    intro op c h
    cases op <;> cases h <;> rfl

theorem register_dispatches_members :
    (memberService.IsBuilt ∧ Route.IsRoutable memberService none ∧
        OperationChoice.resolve (.names [['l', 'i', 's', 't'], ['d', 'e', 's', 't', 'r', 'o', 'y']])
          = .ok [.list, .destroy]) ∧
      ∃ routes, Route.register memberService none
          (.names [['l', 'i', 's', 't'], ['d', 'e', 's', 't', 'r', 'o', 'y']]) = .ok routes ∧
        Route.Covers memberService [.list, .destroy] routes ∧
          ∀ method path, IsDispatched memberService [.list, .destroy] routes method path := by
  have hops : OperationChoice.resolve (.names [['l', 'i', 's', 't'],
      ['d', 'e', 's', 't', 'r', 'o', 'y']]) = .ok [.list, .destroy] := rfl
  exact ⟨⟨isBuilt_memberService, isRoutable_memberService, hops⟩,
    register_dispatches isBuilt_memberService isRoutable_memberService hops⟩

end Http
end TableService
