import Obolos.Platform.TaskInvariant

/-!
# What one statement does to the tasks

`Inv` is true of the database in every state, and `Keeps` is what may happen to it in any time: an
approved plan, the worker that executes it and the recorded results stay, a completed or cancelled
task stays so, and a token that was replaced never comes back.  `Step` is what a process may do in
one statement (`step_replace`, `step_claim`, `step_commit`).
-/

namespace Obolos

namespace GeneralTasks

open Marketplace (EconomyDeployment)

variable {ι : Type} {H : Host} {J : Jsonb} {deployment : Option EconomyDeployment}
  {d d' d'' : TaskDb ι} {row row' : TaskRow} {i j : ι}

/-- A row that is inserted when its transaction commits. -/
structure Prepared (d : TaskDb ι) (agentId : JsString) (row : TaskRow) : Prop where
  stored : ∃ (task : NewTask) (now : ℕ), row = task.stored now
  consistent : row.Consistent
  agent : row.agentId = agentId
  room : openCount agentId d.tasks < 25
  key : ∀ id row', d.tasks.get id = some row' → row.conflicts row' = false
  id : d.tasks.get row.id = none

/-- The history of the claims. -/
structure History (d : TaskDb ι) : Prop where
  drawn : ∀ g ∈ d.granted, (d.drawn g.token).isSome = true
  /-- Only the worker that executes a task was granted an execution. -/
  rows : ∀ g ∈ d.granted, ∃ row, d.tasks.get g.taskId = some row ∧
    (g.phase = .execute → row.executionWorker = some g.worker)
  /-- A token belongs to one worker and one task. -/
  tokens : ∀ g ∈ d.granted, ∀ g' ∈ d.granted, g.token = g'.token →
    g.worker = g'.worker ∧ g.taskId = g'.taskId
  current : ∀ id row token, d.tasks.get id = some row → row.claimToken = some token →
    ∃ g ∈ d.granted, g.taskId = id ∧ g.token = token ∧ row.claimWorker = some g.worker
  executed : ∀ id row, d.tasks.get id = some row → row.executionWorker.isSome = true →
    ∃ g ∈ d.granted, g.taskId = id ∧ g.phase = .execute
  /-- The first execution of a task was granted before its approval expired. -/
  first : ∀ l g l', d.granted = l ++ g :: l' → g.phase = .execute →
    (∀ g' ∈ l, g'.taskId = g.taskId → g'.phase ≠ .execute) →
    ∃ row expiry, d.tasks.get g.taskId = some row ∧ row.approvalExpiresAt = some expiry ∧
      g.now < expiry

/-- Two transactions have locked different agents, for different processes. -/
def Creating.Apart (c c' : Creating ι) : Prop := c.agentId ≠ c'.agentId ∧ c.process ≠ c'.process

/-- Two transactions insert tasks with different identifiers. -/
def Creating.Differ (c c' : Creating ι) : Prop :=
  ∀ row row', c.row = some row → c'.row = some row' → row.id ≠ row'.id

instance : Std.Symm (Creating.Differ (ι := ι)) :=
  ⟨fun _ _ h row row' hrow hrow' heq => h row' row hrow' hrow heq.symm⟩

instance : Std.Symm (Creating.Apart (ι := ι)) := ⟨fun _ _ h => ⟨h.1.symm, h.2.symm⟩⟩

/-- No statement was refused by a constraint of a row or by the trigger. -/
def Unrefused (d : TaskDb ι) : Prop :=
  ∀ e ∈ d.refused, e ≠ ApiError.checkViolation ∧ e ≠ ApiError.raised

/-- The invariant. -/
structure Inv (H : Host) (deployment : Option EconomyDeployment) (d : TaskDb ι) : Prop where
  rows : ∀ id row, d.tasks.get id = some row → row.Ok H
  delivered : ∀ id row, d.tasks.get id = some row → row.Delivered H deployment d.orders
  keys : d.tasks.Unique fun row => some (row.userId, row.agentId, row.idempotencyKey)
  limit : ∀ agentId, openCount agentId d.tasks ≤ 25
  locks : d.creating.Pairwise Creating.Apart
  prepared : ∀ c ∈ d.creating, ∀ row, c.row = some row → Prepared d c.agentId row
  ids : d.creating.Pairwise Creating.Differ
  history : History d
  unrefused : Unrefused d

/-- What may happen to the database in any time. -/
structure Keeps (H : Host) (d d' : TaskDb ι) : Prop where
  now : d.now ≤ d'.now
  orders : OrdersGo d.orders d'.orders
  owner : ∀ agentId userId, d.owner agentId = some userId → d'.owner agentId = some userId
  drawn : ∀ token i, d.drawn token = some i → d'.drawn token = some i
  granted : ∃ l, d'.granted = d.granted ++ l ∧ ∀ g ∈ l, d.now ≤ g.now
  rows : ∀ id row, d.tasks.get id = some row →
    ∃ row', d'.tasks.get id = some row' ∧ row.Becomes H row'
  /-- A token that was replaced never comes back. -/
  fenced : ∀ id row row' token, d.tasks.get id = some row → d'.tasks.get id = some row' →
    (∃ g ∈ d.granted, g.token = token) → row.claimToken ≠ some token →
      row'.claimToken ≠ some token

/-- What a process relies on. -/
structure Rely (H : Host) (deployment : Option EconomyDeployment) (i : ι) (d d' : TaskDb ι) : Prop where
  keeps : Keeps H d d'
  inv : Inv H deployment d → Inv H deployment d'
  /-- Nobody else uses the tokens it has drawn. -/
  fresh : ∀ token, d.drawn token = some i → (∀ g ∈ d.granted, g.token ≠ token) →
    ∀ g ∈ d'.granted, g.token ≠ token
  creating : ∀ c ∈ d'.creating, c.process = i → c ∈ d.creating

/-- What a process may do in one step. -/
structure Step (H : Host) (deployment : Option EconomyDeployment) (i : ι) (d d' : TaskDb ι) : Prop where
  keeps : Keeps H d d'
  inv : Inv H deployment d → Inv H deployment d'
  grants : ∀ g ∈ d'.granted, g ∈ d.granted ∨ (∃ g' ∈ d.granted, g'.token = g.token) ∨
    d.drawn g.token = some i
  creating : ∀ c ∈ d'.creating, c.process ≠ i → c ∈ d.creating

theorem Keeps.refl (d : TaskDb ι) : Keeps H d d :=
  ⟨le_rfl, .refl _, fun _ _ h => h, fun _ _ h => h, ⟨[], by simp, by simp⟩,
    fun _ row h => ⟨row, h, .refl row⟩, fun _ row row' _ h h' _ hne => by
      obtain rfl := Option.some.inj (h.symm.trans h')
      exact hne⟩

theorem Keeps.mem_granted (h : Keeps H d d') {g : Grant} (hg : g ∈ d.granted) :
    g ∈ d'.granted := by
  obtain ⟨l, hl, -⟩ := h.granted
  rw [hl]
  exact List.mem_append_left l hg

theorem Keeps.trans (h : Keeps H d d') (h' : Keeps H d' d'') : Keeps H d d'' := by
  refine ⟨h.now.trans h'.now, h.orders.trans h'.orders, fun a u hu => h'.owner a u (h.owner a u hu),
    fun token i hi => h'.drawn token i (h.drawn token i hi), ?_, fun id row hrow => ?_,
    fun id row row'' token hrow hrow'' hg hne => ?_⟩
  · obtain ⟨l, hl, hnow⟩ := h.granted
    obtain ⟨l', hl', hnow'⟩ := h'.granted
    refine ⟨l ++ l', by rw [hl', hl, List.append_assoc], fun g hg => ?_⟩
    rcases List.mem_append.1 hg with hg | hg
    · exact hnow g hg
    · exact h.now.trans (hnow' g hg)
  · obtain ⟨row', hrow', hb⟩ := h.rows id row hrow
    obtain ⟨row'', hrow'', hb'⟩ := h'.rows id row' hrow'
    exact ⟨row'', hrow'', hb.trans hb'⟩
  · obtain ⟨row', hrow', -⟩ := h.rows id row hrow
    obtain ⟨g, hg, htoken⟩ := hg
    exact h'.fenced id row' row'' token hrow' hrow'' ⟨g, h.mem_granted hg, htoken⟩
      (h.fenced id row row' token hrow hrow' ⟨g, hg, htoken⟩ hne)

theorem Rely.refl (i : ι) (d : TaskDb ι) : Rely H deployment i d d :=
  ⟨.refl d, id, fun _ _ h => h, fun _ h _ => h⟩

theorem Rely.trans (h : Rely H deployment i d d') (h' : Rely H deployment i d' d'') :
    Rely H deployment i d d'' :=
  ⟨h.keeps.trans h'.keeps, fun hinv => h'.inv (h.inv hinv),
    fun token hdrawn hfresh => h'.fresh token (h.keeps.drawn token i hdrawn) (h.fresh token hdrawn hfresh),
    fun c hc hi => h.creating c (h'.creating c hc hi) hi⟩

theorem Step.refl (i : ι) (d : TaskDb ι) : Step H deployment i d d :=
  ⟨.refl d, id, fun _ hg => Or.inl hg, fun _ hc _ => hc⟩

theorem Step.rely (h : Step H deployment i d d') (hj : j ≠ i) : Rely H deployment j d d' := by
  refine ⟨h.keeps, h.inv, fun token hdrawn hfresh g hg => ?_,
    fun c hc hcj => h.creating c hc (by rw [hcj]; exact hj)⟩
  rcases h.grants g hg with hold | ⟨g', hg', htoken⟩ | hi
  · exact hfresh g hold
  · rw [← htoken]
    exact hfresh g' hg'
  · rintro rfl
    rw [hdrawn] at hi
    exact hj (Option.some.inj hi)

/-! ### What does not touch the tasks -/

theorem keeps_same (hnow : d.now ≤ d'.now) (horders : OrdersGo d.orders d'.orders)
    (howner : ∀ agentId userId, d.owner agentId = some userId → d'.owner agentId = some userId)
    (hdrawn : ∀ token i, d.drawn token = some i → d'.drawn token = some i)
    (hgranted : d'.granted = d.granted) (htasks : d'.tasks = d.tasks) : Keeps H d d' := by
  refine ⟨hnow, horders, howner, hdrawn, ⟨[], by simp [hgranted], by simp⟩, fun id row h => ?_,
    fun id row row' token h h' _ hne => ?_⟩
  · exact ⟨row, htasks ▸ h, .refl row⟩
  · rw [htasks] at h'
    obtain rfl := Option.some.inj (h.symm.trans h')
    exact hne

theorem Prepared.congr {agentId : JsString} (h : Prepared d agentId row) (htasks : d'.tasks = d.tasks) :
    Prepared d' agentId row :=
  ⟨h.stored, h.consistent, h.agent, htasks ▸ h.room, htasks ▸ h.key, htasks ▸ h.id⟩

theorem History.same (h : History d) (htasks : d'.tasks = d.tasks) (hgranted : d'.granted = d.granted)
    (hdrawn : ∀ token, (d.drawn token).isSome = true → (d'.drawn token).isSome = true) :
    History d' := by
  refine ⟨?_, ?_, ?_, ?_, ?_, ?_⟩ <;> rw [hgranted]
  · exact fun g hg => hdrawn _ (h.drawn g hg)
  · rw [htasks]
    exact h.rows
  · exact h.tokens
  · rw [htasks]
    exact h.current
  · rw [htasks]
    exact h.executed
  · rw [htasks]
    exact h.first

theorem inv_same (hinv : Inv H deployment d) (htasks : d'.tasks = d.tasks)
    (horders : OrdersGo d.orders d'.orders) (hgranted : d'.granted = d.granted)
    (hdrawn : ∀ token, (d.drawn token).isSome = true → (d'.drawn token).isSome = true)
    (hcreating : d'.creating.Sublist d.creating) (hunrefused : Unrefused d') : Inv H deployment d' :=
  ⟨htasks ▸ hinv.rows, fun id row hrow => (hinv.delivered id row (htasks ▸ hrow)).go horders,
    htasks ▸ hinv.keys, htasks ▸ hinv.limit, hinv.locks.sublist hcreating,
    fun c hc row hrow => (hinv.prepared c (hcreating.subset hc) row hrow).congr htasks,
    hinv.ids.sublist hcreating, hinv.history.same htasks hgranted hdrawn, hunrefused⟩

/-! ### Changing a row -/

section Replace

variable {id : JsString}

theorem id_of_get (hrow : d.tasks.get id = some row)
    (hid : row'.toTaskIdentity = row.toTaskIdentity) : row'.id = id := by
  have hkey := Table.key_of_get hrow
  rw [hid]
  exact hkey

theorem get_replace (hrow : d.tasks.get id = some row)
    (hid : row'.toTaskIdentity = row.toTaskIdentity) (k : JsString) :
    (d.tasks.replace row').get k = if k = id then some row' else d.tasks.get k := by
  have hkey := id_of_get hrow hid
  have hrow' : d.tasks.get row'.id = some row := by rw [hkey]; exact hrow
  rw [Table.get_replace (r := row') hrow']
  simp only [hkey]

/-- A statement does not open a task again. -/
theorem openCount_replace (hrow : d.tasks.get id = some row) (hf : row.Follows H row')
    (agentId : JsString) : openCount agentId (d.tasks.replace row') ≤ openCount agentId d.tasks := by
  rw [openCount, openCount, Table.replace, List.countP_map]
  refine List.countP_mono_left fun r hr hopen => ?_
  simp only [Function.comp_apply] at hopen
  split_ifs at hopen with hkey
  · have hget : d.tasks.get r.id = some r := Table.get_eq_some.2 ⟨hr, rfl⟩
    rw [hkey, id_of_get hrow hf.identity, hrow] at hget
    obtain rfl := Option.some.inj hget
    rw [Bool.and_eq_true, decide_eq_true_eq] at hopen ⊢
    have hagent : row'.agentId = row.agentId := by rw [hf.identity]
    refine ⟨hagent ▸ hopen.1, ?_⟩
    cases hclosed : row.isOpen with
    | true => rfl
    | false =>
      have hstatus := TaskRow.isOpen_congr (hf.closed hclosed)
      rw [hclosed, hopen.2] at hstatus
      cases hstatus
  · exact hopen

/-- What a statement leaves of a transaction that has not ended. -/
theorem Prepared.replace {agentId : JsString} {new : TaskRow} (h : Prepared d agentId new)
    (hrow : d.tasks.get id = some row) (hf : row.Follows H row') {granted : List Grant} :
    Prepared { d with tasks := d.tasks.replace row', granted := granted } agentId new := by
  refine ⟨h.stored, h.consistent, h.agent, (openCount_replace hrow hf agentId).trans_lt h.room,
    fun k r hr => ?_, ?_⟩
  · change (d.tasks.replace row').get k = some r at hr
    rw [get_replace hrow hf.identity] at hr
    split_ifs at hr with hk
    · cases hr
      have hold := h.key _ _ hrow
      simp only [NewTask.conflicts] at hold ⊢
      rw [hf.identity]
      exact hold
    · exact h.key k r hr
  · show (d.tasks.replace row').get new.id = none
    rw [get_replace hrow hf.identity, if_neg]
    · exact h.id
    · rintro rfl
      rw [h.id] at hrow
      cases hrow

/-- The history after a row was changed, and a claim perhaps granted. -/
theorem inv_replace (hinv : Inv H deployment d) (hrow : d.tasks.get id = some row)
    (hf : row.Follows H row') (hnew : row.Extends H deployment d.orders row') {granted : List Grant}
    (hhistory : History { d with tasks := d.tasks.replace row', granted := granted }) :
    Inv H deployment { d with tasks := d.tasks.replace row', granted := granted } := by
  have hrow' : d.tasks.get row'.id = some row := by rw [id_of_get hrow hf.identity]; exact hrow
  refine ⟨fun k r hr => ?_, fun k r hr => ?_, hinv.keys.replace_same hrow' (by rw [hf.identity]),
    fun agentId => (openCount_replace hrow hf agentId).trans (hinv.limit agentId), hinv.locks,
    fun c hc new hc' => (hinv.prepared c hc new hc').replace hrow hf, hinv.ids, hhistory,
    hinv.unrefused⟩
  all_goals
    change (d.tasks.replace row').get k = some r at hr
    rw [get_replace hrow hf.identity] at hr
    split_ifs at hr with hk
  · cases hr
    exact hf.ok
  · exact hinv.rows k r hr
  · cases hr
    exact (hinv.delivered id row hrow).becomes hf.becomes hnew
  · exact hinv.delivered k r hr

/-- What is kept when a row is changed. -/
theorem keeps_replace (hrow : d.tasks.get id = some row) (hf : row.Follows H row')
    {granted : List Grant} (hgranted : ∃ l, granted = d.granted ++ l ∧ ∀ g ∈ l, d.now ≤ g.now)
    (hfenced : ∀ token, (∃ g ∈ d.granted, g.token = token) → row.claimToken ≠ some token →
      row'.claimToken ≠ some token) :
    Keeps H d { d with tasks := d.tasks.replace row', granted := granted } := by
  refine ⟨le_rfl, .refl _, fun _ _ h => h, fun _ _ h => h, hgranted, fun k r hr => ?_,
    fun k r r' token hr hr' hg hne => ?_⟩
  · show ∃ r', (d.tasks.replace row').get k = some r' ∧ _
    rw [get_replace hrow hf.identity]
    by_cases hk : k = id
    · subst hk
      obtain rfl := Option.some.inj (hr.symm.trans hrow)
      exact ⟨row', if_pos rfl, hf.becomes⟩
    · exact ⟨r, by rw [if_neg hk]; exact hr, .refl r⟩
  · change (d.tasks.replace row').get k = some r' at hr'
    rw [get_replace hrow hf.identity] at hr'
    split_ifs at hr' with hk
    · subst hk
      cases hr'
      obtain rfl := Option.some.inj (hr.symm.trans hrow)
      exact hfenced token hg hne
    · obtain rfl := Option.some.inj (hr.symm.trans hr')
      exact hne

/-- The new version of a row has its claim, or none. -/
structure KeepsClaim (row row' : TaskRow) : Prop where
  token : row'.claimToken = row.claimToken ∨ row'.claimToken = none
  worker : row'.claimWorker = row.claimWorker
  execution : row'.executionWorker = row.executionWorker

/-- The approval of a task that was executed stays. -/
theorem expiry_of_executed (hok : row.Ok H) (hf : row.Follows H row')
    (hw : row.executionWorker.isSome = true) : row'.approvalExpiresAt = row.approvalExpiresAt :=
  (hf.replaces.approved (hok.executed hw)).2.2.2

theorem history_replace (hinv : Inv H deployment d) (hrow : d.tasks.get id = some row)
    (hf : row.Follows H row') (hclaim : KeepsClaim row row') :
    History { d with tasks := d.tasks.replace row' } := by
  have hh := hinv.history
  have hget : ∀ k r', (d.tasks.replace row').get k = some r' →
      ∃ r, d.tasks.get k = some r ∧ (r' = r ∨ r = row ∧ r' = row') := by
    intro k r' hr'
    rw [get_replace hrow hf.identity] at hr'
    split_ifs at hr' with hk
    · cases hr'
      exact ⟨row, hk ▸ hrow, Or.inr ⟨rfl, rfl⟩⟩
    · exact ⟨r', hr', Or.inl rfl⟩
  have hput : ∀ k r, d.tasks.get k = some r →
      ∃ r', (d.tasks.replace row').get k = some r' ∧ (r' = r ∨ r = row ∧ r' = row') := by
    intro k r hr
    rw [get_replace hrow hf.identity]
    by_cases hk : k = id
    · subst hk
      obtain rfl := Option.some.inj (hr.symm.trans hrow)
      exact ⟨row', if_pos rfl, Or.inr ⟨rfl, rfl⟩⟩
    · exact ⟨r, by rw [if_neg hk]; exact hr, Or.inl rfl⟩
  refine ⟨hh.drawn, fun g hg => ?_, hh.tokens, fun k r token hr htoken => ?_, fun k r hr hw => ?_,
    fun l g l' hsplit hphase hfirst => ?_⟩
  -- The row changes neither its worker nor the phase of a grant, so every grant keeps its row.
  · obtain ⟨r, hr, hexecute⟩ := hh.rows g hg
    obtain ⟨r', hr', rfl | ⟨rfl, rfl⟩⟩ := hput _ r hr
    · exact ⟨r', hr', hexecute⟩
    · exact ⟨r', hr', fun hp => hclaim.execution.trans (hexecute hp)⟩
  · obtain ⟨r₀, hr₀, rfl | ⟨rfl, rfl⟩⟩ := hget k r hr
    · exact hh.current k r token hr₀ htoken
    · rcases hclaim.token with hsame | hnone
      · rw [hsame] at htoken
        rw [hclaim.worker]
        exact hh.current k _ token hr₀ htoken
      -- A token that is given up needs no grant.
      · rw [hnone] at htoken
        cases htoken
  · obtain ⟨r₀, hr₀, rfl | ⟨rfl, rfl⟩⟩ := hget k r hr
    · exact hh.executed k r hr₀ hw
    · rw [hclaim.execution] at hw
      exact hh.executed k _ hr₀ hw
  · obtain ⟨r, expiry, hr, hexpiry, hlt⟩ := hh.first l g l' hsplit hphase hfirst
    obtain ⟨r', hr', rfl | ⟨rfl, rfl⟩⟩ := hput _ r hr
    · exact ⟨r', expiry, hr', hexpiry, hlt⟩
    · refine ⟨r', expiry, hr', ?_, hlt⟩
      obtain ⟨r₀, hr₀, hexecute⟩ := hh.rows g (by rw [hsplit]; simp)
      obtain rfl := Option.some.inj (hr.symm.trans hr₀)
      rw [expiry_of_executed (hinv.rows _ _ hr) hf (by rw [hexecute hphase]; rfl), hexpiry]

/-- A statement that leaves the claims alone. -/
theorem step_replace (hinv : Inv H deployment d) (hrow : d.tasks.get id = some row) (hf : row.Follows H row')
    (hclaim : KeepsClaim row row') (hnew : row.Extends H deployment d.orders row') :
    Step H deployment i d { d with tasks := d.tasks.replace row' } := by
  refine ⟨?_, fun _ => ?_, fun _ hg => Or.inl hg, fun _ hc _ => hc⟩
  · refine keeps_replace hrow hf ⟨[], by simp, by simp⟩ fun token _ hne => ?_
    rcases hclaim.token with hsame | hnone
    · rw [hsame]
      exact hne
    · rw [hnone]
      exact fun h => by cases h
  · exact inv_replace hinv hrow hf hnew (history_replace hinv hrow hf hclaim)

end Replace

/-! ### Claims -/

section Claim

variable {worker token id : JsString}

/-- The token of a claim is the one that the worker has, or new. -/
theorem tokenFor_cases (worker : JsString) (hh : History d) (hrow : d.tasks.get id = some row)
    (hfresh : ∀ g ∈ d.granted, g.token ≠ token) :
    (row.claimToken = some (row.tokenFor worker token) ∧
      ∃ g ∈ d.granted, g.taskId = id ∧ g.token = row.tokenFor worker token ∧ g.worker = worker) ∨
    (row.tokenFor worker token = token ∧ ∀ g ∈ d.granted, g.token ≠ row.tokenFor worker token) := by
  have hnew : row.tokenFor worker token = token →
      ∀ g ∈ d.granted, g.token ≠ row.tokenFor worker token := fun heq => by
    rw [heq]
    exact hfresh
  by_cases hworker : row.claimWorker = some worker
  · cases htoken : row.claimToken with
    | none =>
      have heq : row.tokenFor worker token = token := by
        rw [TaskRow.tokenFor, if_pos hworker, htoken]
        rfl
      exact Or.inr ⟨heq, hnew heq⟩
    | some t =>
      have heq : row.tokenFor worker token = t := by
        rw [TaskRow.tokenFor, if_pos hworker, htoken]
        rfl
      obtain ⟨g, hg, hid, ht, hw⟩ := hh.current id row t hrow htoken
      rw [heq]
      exact Or.inl ⟨rfl, g, hg, hid, ht, Option.some.inj (hw.symm.trans hworker)⟩
  · have heq : row.tokenFor worker token = token := by rw [TaskRow.tokenFor, if_neg hworker]
    exact Or.inr ⟨heq, hnew heq⟩

/-- A claim that is granted now. -/
def grantOf (d : TaskDb ι) (row : TaskRow) (worker token : JsString) : Grant :=
  ⟨row.id, worker, row.tokenFor worker token, row.phaseFor, d.now⟩

theorem history_claim (hinv : Inv H deployment d) (hrow : d.tasks.get id = some row)
    (hclaim : row.claimable d.now worker = true) (hdrawn : d.drawn token = some i)
    (hfresh : ∀ g ∈ d.granted, g.token ≠ token) :
    History { d with
      tasks := d.tasks.replace (row.next (row.claim d.now worker token))
      granted := d.granted ++ [grantOf d row worker token] } := by
  have hok := hinv.rows id row hrow
  have hf := TaskRow.follows_claim token hok hclaim
  have hh := hinv.history
  have hid : row.id = id := id_of_get hrow rfl
  have htoken := tokenFor_cases worker hh hrow hfresh
  have hput : ∀ k, (d.tasks.replace (row.next (row.claim d.now worker token))).get k =
      if k = id then some (row.next (row.claim d.now worker token)) else d.tasks.get k :=
    get_replace hrow hf.identity
  have hphase : (grantOf d row worker token).phase = .execute →
      row.approvedPlanHash.isSome = true := by
    intro hp
    change row.phaseFor = .execute at hp
    rw [TaskRow.phaseFor] at hp
    split_ifs at hp with ha
    exact ha
  -- The token is new, or that of a lease of this worker and this task that is still running.
  refine ⟨fun g hg => ?_, fun g hg => ?_, fun g hg g' hg' => ?_, fun k r t hr ht => ?_,
    fun k r hr hw => ?_, fun l g l' hsplit hp hfirst => ?_⟩
  · rcases List.mem_append.1 hg with hg | hg
    · exact hh.drawn g hg
    · obtain rfl := List.mem_singleton.1 hg
      rcases htoken with ⟨-, g, hg, -, ht, -⟩ | ⟨heq, -⟩
      · show (d.drawn (row.tokenFor worker token)).isSome = true
        rw [← ht]
        exact hh.drawn g hg
      · show (d.drawn (row.tokenFor worker token)).isSome = true
        rw [heq, hdrawn]
        rfl
  · show ∃ r, (d.tasks.replace _).get g.taskId = some r ∧ _
    rw [hput]
    rcases List.mem_append.1 hg with hg | hg
    · obtain ⟨r, hr, hexecute⟩ := hh.rows g hg
      by_cases hk : g.taskId = id
      · rw [hk] at hr ⊢
        obtain rfl := Option.some.inj (hrow.symm.trans hr)
        refine ⟨_, if_pos rfl, fun hp => ?_⟩
        rw [hf.replaces.executed (by rw [hexecute hp]; rfl), hexecute hp]
      · exact ⟨r, by rw [if_neg hk]; exact hr, hexecute⟩
    · obtain rfl := List.mem_singleton.1 hg
      exact ⟨_, if_pos hid, fun hp => TaskRow.executionWorker_claim hok hclaim (hphase hp)⟩
  -- Two grants with one token: only the pairs with the new grant need an argument.
  · rcases List.mem_append.1 hg with hg | hg <;> rcases List.mem_append.1 hg' with hg' | hg'
    · exact hh.tokens g hg g' hg'
    · obtain rfl := List.mem_singleton.1 hg'
      intro heq
      rcases htoken with ⟨-, g₀, hg₀, hid₀, ht₀, hw₀⟩ | ⟨-, hne⟩
      · obtain ⟨hworker, htask⟩ := hh.tokens g hg g₀ hg₀ (heq.trans ht₀.symm)
        exact ⟨hworker.trans hw₀, htask.trans (hid₀.trans hid.symm)⟩
      · exact absurd heq (hne g hg)
    · obtain rfl := List.mem_singleton.1 hg
      intro heq
      rcases htoken with ⟨-, g₀, hg₀, hid₀, ht₀, hw₀⟩ | ⟨-, hne⟩
      · obtain ⟨hworker, htask⟩ := hh.tokens g₀ hg₀ g' hg' (ht₀.trans heq)
        exact ⟨hw₀.symm.trans hworker, (hid.trans hid₀.symm).trans htask⟩
      · exact absurd heq.symm (hne g' hg')
    · obtain rfl := List.mem_singleton.1 hg
      obtain rfl := List.mem_singleton.1 hg'
      exact fun _ => ⟨rfl, rfl⟩
  · change (d.tasks.replace _).get k = some r at hr
    rw [hput] at hr
    split_ifs at hr with hk
    · cases hr
      refine ⟨grantOf d row worker token, by simp, hid.trans hk.symm, ?_, rfl⟩
      exact Option.some.inj ht
    · obtain ⟨g, hg, hrest⟩ := hh.current k r t hr ht
      exact ⟨g, List.mem_append_left _ hg, hrest⟩
  · change (d.tasks.replace _).get k = some r at hr
    rw [hput] at hr
    split_ifs at hr with hk
    · cases hr
      have ha := hf.ok.executed hw
      change row.approvedPlanHash.isSome = true at ha
      refine ⟨grantOf d row worker token, by simp, hid.trans hk.symm, ?_⟩
      show row.phaseFor = .execute
      rw [TaskRow.phaseFor, if_pos ha]
    · obtain ⟨g, hg, hrest⟩ := hh.executed k r hr hw
      exact ⟨g, List.mem_append_left _ hg, hrest⟩
  · show ∃ r expiry, (d.tasks.replace _).get g.taskId = some r ∧ _
    rw [hput]
    rcases List.eq_nil_or_concat l' with rfl | ⟨l'', y, rfl⟩
    · -- The claim that is granted now is the first one.
      obtain ⟨rfl, hlast⟩ := List.append_inj' hsplit rfl
      obtain rfl := (List.cons.inj hlast).1
      have hnone : row.executionWorker = none := by
        cases hw : row.executionWorker with
        | none => rfl
        | some w =>
          obtain ⟨g₀, hg₀, hid₀, hp₀⟩ := hh.executed id row hrow (by rw [hw]; rfl)
          exact absurd hp₀ (hfirst g₀ hg₀ (hid₀.trans hid.symm))
      -- Without an execution so far the approval must be unexpired to be claimed.
      rcases (TaskRow.claimable_cases hclaim).2 with hstatus | ⟨-, -, hexpires⟩
      · have ha := hphase hp
        rw [hok.approved_none (hok.unplanned (by tauto))] at ha
        cases ha
      · rcases hexpires with hsome | ⟨t, ht, hlt⟩
        · rw [hnone] at hsome
          cases hsome
        · exact ⟨_, t, if_pos hid, ht, hlt⟩
    · rw [List.concat_eq_append, ← List.cons_append, ← List.append_assoc] at hsplit
      obtain ⟨hold, -⟩ := List.append_inj' hsplit rfl
      obtain ⟨r, expiry, hr, hexpiry, hlt⟩ := hh.first l g l'' hold hp hfirst
      by_cases hk : g.taskId = id
      · rw [hk] at hr ⊢
        obtain rfl := Option.some.inj (hrow.symm.trans hr)
        exact ⟨_, expiry, if_pos rfl, hexpiry, hlt⟩
      · exact ⟨r, expiry, by rw [if_neg hk]; exact hr, hexpiry, hlt⟩

/-- A claim that is granted. -/
theorem step_claim (hinv : Inv H deployment d) (hrow : d.tasks.get id = some row)
    (hclaim : row.claimable d.now worker = true) (hdrawn : d.drawn token = some i)
    (hfresh : ∀ g ∈ d.granted, g.token ≠ token) :
    Step H deployment i d { d with
      tasks := d.tasks.replace (row.next (row.claim d.now worker token))
      granted := d.granted ++ [grantOf d row worker token] } := by
  have hf := TaskRow.follows_claim token (hinv.rows id row hrow) hclaim
  have htoken := tokenFor_cases worker hinv.history hrow hfresh
  refine ⟨keeps_replace hrow hf ⟨_, rfl, by simp [grantOf]⟩ fun t hg hne hnew => ?_,
    fun _ => inv_replace hinv hrow hf (TaskRow.extends_same rfl)
      (history_claim hinv hrow hclaim hdrawn hfresh), fun g hg => ?_,
    fun _ hc _ => hc⟩
  · have heq : row.tokenFor worker token = t := Option.some.inj hnew
    rcases htoken with ⟨hold, -⟩ | ⟨-, hnone⟩
    · exact hne (heq ▸ hold)
    · obtain ⟨g, hg, ht⟩ := hg
      exact hnone g hg (ht.trans heq.symm)
  · rcases List.mem_append.1 hg with hg | hg
    · exact Or.inl hg
    · obtain rfl := List.mem_singleton.1 hg
      rcases htoken with ⟨-, g, hg, -, ht, -⟩ | ⟨heq, -⟩
      · exact Or.inr (Or.inl ⟨g, hg, ht⟩)
      · refine Or.inr (Or.inr ?_)
        show d.drawn (row.tokenFor worker token) = some i
        rw [heq]
        exact hdrawn

end Claim

/-! ### Statements -/

/-- Nothing that the constraints of a row or the trigger object to. -/
def Harmless (e : ApiError) : Prop := e ≠ ApiError.checkViolation ∧ e ≠ ApiError.raised

theorem harmless_database {code : JsString} (h : code ≠ js "23514") (h' : code ≠ js "P0001") :
    Harmless (.database code) := by
  refine ⟨fun heq => h ?_, fun heq => h' ?_⟩
  · cases heq
    rfl
  · cases heq
    rfl

theorem harmless_outOfRange : Harmless .outOfRange := harmless_database (by decide) (by decide)

theorem harmless_untranslatable : Harmless .untranslatable :=
  harmless_database (by decide) (by decide)

theorem harmless_uniqueViolation : Harmless .uniqueViolation :=
  harmless_database (by decide) (by decide)

section Statements

variable {α : Type} {f : Statement (TaskDb ι) ApiError α} {r : Except ApiError α}

theorem Delivers.ok {a : α} {x : Except ApiError α} (h : Delivers x (.ok a)) : x = .ok a := by
  rcases h with h | ⟨e, -, h⟩
  · exact h.symm
  · cases h

/-- An answer is that of the statement. -/
theorem Sends.ok {a : α} (h : Sends f d (.ok a) d') : f d = .ok (a, d') := by
  cases h with
  | refused _ answer => cases answer.ok
  | done done answer =>
    cases answer.ok
    exact done

/-- A statement that only reads. -/
theorem Sends.read {g : TaskDb ι → α} (h : Sends (Statement.read g) d r d') :
    d' = d ∧ ∀ a, r = .ok a → a = g d := by
  refine ⟨?_, fun a ha => ?_⟩
  · cases h with
    | unsent => rfl
    | refused refused => cases refused
    | done done => exact (Prod.mk.inj (Except.ok.inj done)).2.symm
  · subst ha
    exact (Prod.mk.inj (Except.ok.inj h.ok)).1.symm

theorem Unrefused.append {e : ApiError} (h : Unrefused d) (he : Harmless e)
    {creating : List (Creating ι)} :
    Unrefused { d with creating := creating, refused := d.refused ++ [e] } := by
  intro e' he'
  rcases List.mem_append.1 he' with hold | hnew
  · exact h e' hold
  · rw [List.mem_singleton.1 hnew]
    exact he

/-- A statement that was refused. -/
theorem step_refused {e : ApiError} (he : Harmless e) :
    Step H deployment i d { d with refused := d.refused ++ [e] } := by
  exact ⟨keeps_same le_rfl (.refl _) (fun _ _ h => h) (fun _ _ h => h) rfl rfl, fun hinv =>
    inv_same hinv rfl (.refl _) rfl (fun _ h => h) (List.Sublist.refl _) (hinv.unrefused.append he),
    fun _ hg => Or.inl hg, fun _ hc _ => hc⟩

theorem step_sends (hrefused : ∀ e, f d = .error e → Harmless e)
    (hdone : ∀ a d', f d = .ok (a, d') → Step H deployment i d d') (h : Sends f d r d') :
    Step H deployment i d d' := by
  cases h with
  | unsent => exact .refl i d
  | refused refused => exact step_refused (hrefused _ refused)
  | done done => exact hdone _ _ done

theorem checked_next {new : TaskRow} (hf : row.Follows H (row.next new)) :
    row.checked H.numerals new =
      if row.revision < int4Max then .ok (row.next new) else .error .outOfRange := by
  split_ifs with hlt
  · exact (TaskRow.checked_ok H.numerals _).2 ⟨hlt, rfl, hf.replaces, hf.ok.consistent⟩
  · simp only [TaskRow.checked, increment, if_neg hlt]
    rfl

/-- What an update does when its new version follows the old one. -/
theorem update_cases {id : JsString} {cond : TaskRow → Bool} {new : TaskRow → TaskRow}
    (hf : ∀ row, d.tasks.get id = some row → cond row = true → row.Follows H (row.next (new row)))
    {x : Except ApiError (Option TaskRow × TaskDb ι)}
    (h : TaskDb.run (Table.update id cond fun row => row.checked H.numerals (new row)) d = x) :
    x = .error .outOfRange ∨ x = .ok (none, d) ∨
      ∃ row, d.tasks.get id = some row ∧ cond row = true ∧
        x = .ok (some (row.next (new row)),
          { d with tasks := d.tasks.replace (row.next (new row)) }) := by
  subst h
  cases hget : d.tasks.get id with
  | none => exact Or.inr (Or.inl (by simp only [TaskDb.run, Table.update, hget]; rfl))
  | some row =>
    cases hcond : cond row with
    | false =>
      refine Or.inr (Or.inl ?_)
      simp only [TaskDb.run, Table.update, hget, hcond]
      rfl
    | true =>
      simp only [TaskDb.run, Table.update, hget, hcond, if_true, checked_next (hf row hget hcond)]
      split_ifs
      · exact Or.inr (Or.inr ⟨row, rfl, hcond, rfl⟩)
      · exact Or.inl rfl

/-- An update that leaves the claims alone. -/
theorem step_update {f : Statement (TaskDb ι) ApiError (Option TaskRow)} {id : JsString}
    {cond : TaskRow → Bool} (new : TaskRow → TaskRow) {o : Except ApiError (Option TaskRow)}
    (hinv : Inv H deployment d) (h : Sends f d o d')
    (heq : f d = TaskDb.run (Table.update id cond fun row => row.checked H.numerals (new row)) d)
    (hf : ∀ row, d.tasks.get id = some row → cond row = true →
      row.Follows H (row.next (new row)) ∧ KeepsClaim row (row.next (new row)) ∧
        row.Extends H deployment d.orders (row.next (new row))) :
    Step H deployment i d d' := by
  have hfollows := fun row hrow hcond => (hf row hrow hcond).1
  refine step_sends (fun e he => ?_) (fun a d₁ hd => ?_) h
  · rcases update_cases hfollows (heq.symm.trans he) with hx | hx | ⟨row, -, -, hx⟩ <;> cases hx
    exact harmless_outOfRange
  · rcases update_cases hfollows (heq.symm.trans hd) with hx | hx | ⟨row, hrow, hcond, hx⟩ <;>
      cases hx
    · exact .refl i d
    · obtain ⟨hfollows, hclaim, hnew⟩ := hf row hrow hcond
      exact step_replace hinv hrow hfollows hclaim hnew

variable {id userId agentId worker token : JsString} {planHash : Bytes32} {revision : ℕ}
  {o : Except ApiError (Option TaskRow)}

theorem step_approveTask (hinv : Inv H deployment d)
    (h : Sends (approveTask H.numerals id userId planHash revision) d o d') : Step H deployment i d d' := by
  refine step_update (fun row => row.approve d.now) hinv h rfl fun row hrow hcond => ?_
  have hcond := of_decide_eq_true hcond
  exact ⟨TaskRow.follows_approve (hinv.rows id row hrow) hcond.2.1,
    ⟨Or.inl rfl, rfl, rfl⟩, TaskRow.extends_same rfl⟩

theorem step_cancelTask (hinv : Inv H deployment d)
    (h : Sends (cancelTask H.numerals id userId revision) d o d') : Step H deployment i d d' := by
  refine step_update (fun row => row.cancel d.now) hinv h rfl fun row hrow hcond => ?_
  have hcond := of_decide_eq_true hcond
  exact ⟨TaskRow.follows_cancel (hinv.rows id row hrow) hcond.2.2.1 hcond.2.1,
    ⟨Or.inr rfl, rfl, rfl⟩, TaskRow.extends_same rfl⟩

theorem step_retryTask (hinv : Inv H deployment d)
    (h : Sends (retryTask H.numerals id userId revision) d o d') : Step H deployment i d d' := by
  refine step_update (fun row => row.retry d.now) hinv h rfl fun row hrow hcond => ?_
  have hcond := of_decide_eq_true hcond
  exact ⟨TaskRow.follows_retry (hinv.rows id row hrow) hcond.2.1,
    ⟨Or.inl rfl, rfl, rfl⟩, TaskRow.extends_same rfl⟩

/-- The task that a worker claims. -/
theorem candidate_spec {locked : JsString → Bool}
    (h : candidate locked agentId worker d = some row) :
    d.tasks.get row.id = some row ∧ row.agentId = agentId ∧ row.claimable d.now worker = true := by
  have hmem := List.mem_of_mem_head? h
  rw [List.mem_insertionSort, List.mem_filter] at hmem
  obtain ⟨hrow, hcond⟩ := hmem
  simp only [Bool.and_eq_true, decide_eq_true_eq] at hcond
  exact ⟨Table.get_eq_some.2 ⟨hrow, rfl⟩, hcond.1.1.1, hcond.1.2⟩

theorem step_claimTask {locked : JsString → Bool} (hinv : Inv H deployment d) (hdrawn : d.drawn token = some i)
    (hfresh : ∀ g ∈ d.granted, g.token ≠ token)
    (h : Sends (claimTaskRow H.numerals locked agentId worker token) d o d') : Step H deployment i d d' := by
  cases hcandidate : candidate locked agentId worker d with
  | none =>
    refine step_sends (fun e he => ?_) (fun a d₁ hd => ?_) h
    · simp only [claimTaskRow, hcandidate] at he
      cases he
    · simp only [claimTaskRow, hcandidate] at hd
      cases hd
      exact .refl i d
  | some row =>
    obtain ⟨hrow, -, hclaim⟩ := candidate_spec hcandidate
    have hf := TaskRow.follows_claim token (hinv.rows _ _ hrow) hclaim
    have heq : claimTaskRow H.numerals locked agentId worker token d =
        if row.revision < int4Max then .ok (some (row.next (row.claim d.now worker token)),
          { d with
            tasks := d.tasks.replace (row.next (row.claim d.now worker token))
            granted := d.granted ++ [grantOf d row worker token] })
        else .error .outOfRange := by
      simp only [claimTaskRow, hcandidate, TaskDb.run, Table.update, hrow, if_true, checked_next hf]
      split_ifs <;> rfl
    refine step_sends (fun e he => ?_) (fun a d₁ hd => ?_) h
    · rw [heq] at he
      split_ifs at he
      cases he
      exact harmless_outOfRange
    · rw [heq] at hd
      split_ifs at hd
      cases hd
      exact step_claim hinv hrow hclaim hdrawn hfresh

/-- The plan and the results of a report can be stored. -/
theorem TaskRow.Reports.storable {report : Report} (hok : row.Ok H)
    (h : TaskRow.Reports H deployment d.orders row report) :
    (∀ plan, report.plan = some plan → Storable plan) ∧ ∀ x ∈ report.results, Storable x := by
  have hplan : ∀ plan, row.plan = some plan → Storable plan := fun plan hp => by
    obtain ⟨_, -, hcreated⟩ := hok.planned plan hp
    exact ⟨hcreated.distinct, Json.finite_of_canonicalJsonHash hcreated.hash⟩
  cases h with
  | plan _ created =>
    refine ⟨fun plan hp => ?_, hok.results⟩
    cases hp
    exact ⟨created.distinct, Json.finite_of_canonicalJsonHash created.hash⟩
  | progress _ _ _ _ storable =>
    refine ⟨hplan, fun x hx => ?_⟩
    rcases List.mem_append.1 hx with hx | hx
    · exact hok.results x hx
    · exact List.mem_singleton.1 hx ▸ storable
  | complete => exact ⟨hplan, hok.results⟩
  | blocked => exact ⟨hplan, hok.results⟩

/-- What a report sends to the table, if its values can be stored. -/
theorem reportTask_eq (N : Json.Numerals) (J : Jsonb) (d : TaskDb ι) (id agentId token : JsString)
    (report : Report) (revision : ℕ) :
    reportTask N J id agentId token report revision d = .error .untranslatable ∨
      ∃ plan' results', Option.Rel (fun y x => J.store x = some y) plan' report.plan ∧
        storeItems J report.results = some results' ∧
        reportTask N J id agentId token report revision d = TaskDb.run (Table.update id
          (fun row => row.agentId = agentId ∧ row.claimToken = some token ∧ row.revision = revision)
          fun row => row.checked N
            (row.report d.now report.status plan' report.planHash results' report.error)) d := by
  unfold reportTask
  cases hplan : report.plan with
  | none =>
    cases hitems : storeItems J report.results with
    | none => exact Or.inl rfl
    | some results' => exact Or.inr ⟨none, results', .none, rfl, rfl⟩
  | some plan =>
    cases hstore : J.store plan with
    | none => exact Or.inl (by simp only [Option.map_some, hstore])
    | some plan' =>
      cases hitems : storeItems J report.results with
      | none => exact Or.inl (by simp only [Option.map_some, hstore])
      | some results' =>
        exact Or.inr ⟨some plan', results', .some hstore, rfl,
          by simp only [Option.map_some, hstore]; rfl⟩

theorem step_reportTask {report : Report} (hinv : Inv H deployment d)
    (hreport : ∀ row, d.tasks.get id = some row → row.revision = revision →
      TaskRow.Reports H deployment d.orders row report)
    (h : Sends (reportTask H.numerals J id agentId token report revision) d o d') :
    Step H deployment i d d' := by
  rcases reportTask_eq H.numerals J d id agentId token report revision with
    heq | ⟨plan', results', hplan, hresults, heq⟩
  · refine step_sends (fun e he => ?_) (fun a d₁ hd => ?_) h
    · cases heq.symm.trans he
      exact harmless_untranslatable
    · cases heq.symm.trans hd
  · refine step_update _ hinv h heq fun row hrow hcond => ?_
    have hok := hinv.rows id row hrow
    have hreports := hreport row hrow (of_decide_eq_true hcond).2.2
    obtain ⟨hstorable, hitems⟩ := hreports.storable hok
    have hkept := kept_items (fun x hx => (hitems x hx).distinct) (fun x hx => (hitems x hx).finite)
      hresults
    refine ⟨TaskRow.follows_report hok hreports ?_ hkept, ⟨Or.inl rfl, rfl, rfl⟩,
      TaskRow.extends_report hreports hkept⟩
    generalize report.plan = plan at hplan hstorable
    cases hplan with
    | none => exact .none
    | some hstore => exact .some (kept_store (hstorable _ rfl).distinct (hstorable _ rfl).finite hstore)

end Statements

/-! ### Tokens and transactions -/

section Creating

variable {agentId userId token : JsString} {task : NewTask}

theorem step_draw (h : d.drawn token = none) :
    Step H deployment i d { d with drawn := Function.update d.drawn token (some i) } := by
  have hkeeps : ∀ t j, d.drawn t = some j → Function.update d.drawn token (some i) t = some j := by
    intro t j ht
    rw [Function.update_of_ne]
    · exact ht
    · rintro rfl
      rw [h] at ht
      cases ht
  refine ⟨keeps_same le_rfl (.refl _) (fun _ _ h => h) hkeeps rfl rfl,
    fun hinv => inv_same hinv rfl (.refl _) rfl
    (fun t ht => ?_) (List.Sublist.refl _) hinv.unrefused, fun _ hg => Or.inl hg, fun _ hc _ => hc⟩
  obtain ⟨j, hj⟩ := Option.isSome_iff_exists.1 ht
  exact Option.isSome_iff_exists.2 ⟨j, hkeeps t j hj⟩

/-- Other transactions. -/
theorem step_creating {creating : List (Creating ι)}
    (hothers : ∀ c ∈ creating, c.process ≠ i → c ∈ d.creating)
    (hlocks : Inv H deployment d → creating.Pairwise Creating.Apart)
    (hprepared : Inv H deployment d → ∀ c ∈ creating, ∀ row, c.row = some row → Prepared d c.agentId row)
    (hids : Inv H deployment d → creating.Pairwise Creating.Differ) :
    Step H deployment i d { d with creating } :=
  ⟨keeps_same le_rfl (.refl _) (fun _ _ h => h) (fun _ _ h => h) rfl rfl,
    fun hinv => ⟨hinv.rows, hinv.delivered, hinv.keys, hinv.limit, hlocks hinv,
      fun c hc row hrow => (hprepared hinv c hc row hrow).congr rfl, hids hinv,
      hinv.history.same rfl rfl fun _ h => h, hinv.unrefused⟩,
    fun _ hg => Or.inl hg, hothers⟩

theorem step_locks {r : Except ApiError Unit} (h : Locks i agentId userId d r d') :
    Step H deployment i d d' := by
  cases h with
  | unsent => exact .refl i d
  | foreign => exact .refl i d
  | done owner free answer =>
    refine step_creating (fun c hc hi => ?_) (fun hinv => ?_) (fun hinv c hc row hrow => ?_)
      fun hinv => ?_
    · rcases List.mem_append.1 hc with hc | hc
      · exact hc
      · rw [List.mem_singleton.1 hc] at hi
        exact absurd rfl hi
    · refine List.pairwise_append.2 ⟨hinv.locks, List.pairwise_singleton _ _, fun c hc c' hc' => ?_⟩
      rw [List.mem_singleton.1 hc']
      exact free c hc
    · rcases List.mem_append.1 hc with hc | hc
      · exact hinv.prepared c hc row hrow
      · rw [List.mem_singleton.1 hc] at hrow
        cases hrow
    · refine List.pairwise_append.2 ⟨hinv.ids, List.pairwise_singleton _ _,
        fun c hc c' hc' row row' _ hrow' => ?_⟩
      rw [List.mem_singleton.1 hc'] at hrow'
      cases hrow'

/-- What is inserted at the end of a transaction. -/
theorem insertTask_ok {o : Option TaskRow} (h : insertTask task d = .ok o) :
    o = none ∨ o = some (task.stored d.now) ∧ Prepared d task.agentId (task.stored d.now) ∧
      ∀ c ∈ d.creating, ∀ row, c.row = some row → row.id ≠ task.id := by
  unfold insertTask at h
  split_ifs at h with hroom hallowed hkey htaken
  · cases h
    exact Or.inl rfl
  · cases h
    simp only [TaskDb.taken, Bool.or_eq_true, not_or, Bool.not_eq_true, Option.isSome_eq_false_iff,
      Option.isNone_iff_eq_none, List.any_eq_false] at htaken
    refine Or.inr ⟨rfl, ⟨⟨task, d.now, rfl⟩, hallowed, rfl, hroom, fun id row' hrow => ?_, htaken.1⟩,
      fun c hc row hrow heq => ?_⟩
    · refine Bool.eq_false_iff.2 fun hconflict => hkey ?_
      exact Table.any_iff.2 ⟨id, row', hrow, hconflict⟩
    · have hany := htaken.2 c hc
      rw [hrow, Option.any_some, decide_eq_true heq] at hany
      cases hany
  · cases h
    exact Or.inl rfl

variable [DecidableEq ι]

theorem TaskDb.mem_without {c : Creating ι} :
    c ∈ d.without i ↔ c ∈ d.creating ∧ c.process ≠ i := by
  rw [TaskDb.without, List.mem_filter, decide_eq_true_eq]

theorem TaskDb.without_sublist : (d.without i).Sublist d.creating := List.filter_sublist

/-- The locks of the other processes. -/
theorem Inv.others {c : Creating ι} {r : Option TaskRow} (hinv : Inv H deployment d)
    (hc' : ⟨i, agentId, r⟩ ∈ d.creating) (hc : c ∈ d.without i) : c.agentId ≠ agentId := by
  obtain ⟨hmem, hi⟩ := TaskDb.mem_without.1 hc
  exact (hinv.locks.forall hmem hc' fun heq => hi (heq ▸ rfl)).1

/-- The row of a task meets the constraints if the task does. -/
theorem consistent_stored (h : task.Allowed) (now : ℕ) : (task.stored now).Consistent where
  terms := h
  plan := rfl
  approved _ hhash := by cases hhash
  authorized hs := by rcases hs with hs | hs | hs <;> cases hs
  executed hs := by rcases hs with hs | hs <;> cases hs
  completed hs := by cases hs

theorem step_inserts {r : Except ApiError (Option TaskRow)} (htask : task.Allowed)
    (h : Inserts i task d r d') : Step H deployment i d d' := by
  cases h with
  | unsent => exact .refl i d
  | @refused e _ refused =>
    have he : Harmless e := by
      unfold insertTask at refused
      split_ifs at refused with hroom hallowed
      · cases refused
        exact harmless_uniqueViolation
      · exact absurd (consistent_stored htask d.now) hallowed
    exact ⟨keeps_same le_rfl (.refl _) (fun _ _ h => h) (fun _ _ h => h) rfl rfl, fun hinv =>
      inv_same hinv rfl (.refl _) rfl (fun _ h => h) TaskDb.without_sublist (hinv.unrefused.append he),
      fun _ hg => Or.inl hg, fun _ hc _ => (TaskDb.mem_without.1 hc).1⟩
  | done locked inserted answer =>
    refine step_creating (fun c hc hi => ?_) (fun hinv => ?_) (fun hinv c hc row hrow => ?_)
      fun hinv => ?_
    · rcases List.mem_append.1 hc with hc | hc
      · exact (TaskDb.mem_without.1 hc).1
      · rw [List.mem_singleton.1 hc] at hi
        exact absurd rfl hi
    · refine List.pairwise_append.2 ⟨hinv.locks.sublist TaskDb.without_sublist,
        List.pairwise_singleton _ _, fun c hc c' hc' => ?_⟩
      rw [List.mem_singleton.1 hc']
      exact ⟨hinv.others locked hc, (TaskDb.mem_without.1 hc).2⟩
    · rcases List.mem_append.1 hc with hc | hc
      · exact hinv.prepared c (TaskDb.mem_without.1 hc).1 row hrow
      · rw [List.mem_singleton.1 hc] at hrow ⊢
        rcases insertTask_ok inserted with rfl | ⟨rfl, hprepared, -⟩
        · cases hrow
        · cases hrow
          exact hprepared
    · refine List.pairwise_append.2 ⟨hinv.ids.sublist TaskDb.without_sublist,
        List.pairwise_singleton _ _, fun c hc c' hc' row row' hrow hrow' => ?_⟩
      rw [List.mem_singleton.1 hc'] at hrow'
      rcases insertTask_ok inserted with rfl | ⟨rfl, -, hids⟩
      · cases hrow'
      · cases hrow'
        exact hids c (TaskDb.mem_without.1 hc).1 row hrow

end Creating

/-! ### The end of a transaction -/

section Commit

variable {agentId agentId' : JsString} {new : TaskRow}

/-- The row of a new task. -/
theorem Prepared.empty (h : Prepared d agentId new) :
    new.isOpen = true ∧ new.executionWorker = none ∧ new.claimToken = none := by
  obtain ⟨task, now, rfl⟩ := h.stored
  exact ⟨rfl, rfl, rfl⟩

theorem Prepared.ok (h : Prepared d agentId new) : new.Ok H := by
  obtain ⟨task, now, hstored⟩ := h.stored
  subst hstored
  exact {
    consistent := h.consistent
    planned := fun plan hp => by cases hp
    unplanned := fun _ => rfl
    waiting := fun hs => by cases hs
    approved := fun ha => by cases ha
    executed := fun hw => by cases hw
    phase := fun hp => by cases hp
    cancelled := fun hs => by cases hs
    paid := fun hne => absurd rfl hne
    results := fun x hx => by cases hx }

/-- A new task has no results. -/
theorem Prepared.delivered (h : Prepared d agentId new) {orders : OrderTable} :
    new.Delivered H deployment orders := by
  obtain ⟨task, now, rfl⟩ := h.stored
  intro index recorded hget
  cases hget

theorem Prepared.openCount (h : Prepared d agentId new) (agentId' : JsString) :
    GeneralTasks.openCount agentId' (d.tasks.insert new) =
      GeneralTasks.openCount agentId' d.tasks + if agentId' = agentId then 1 else 0 := by
  have hrows : (d.tasks.insert new).rows = d.tasks.rows ++ [new] := by
    rw [Table.insert, dif_neg (Table.get_eq_none.1 h.id)]
  rw [GeneralTasks.openCount, hrows, List.countP_append, List.countP_singleton, h.empty.1, h.agent,
    Bool.and_true]
  by_cases heq : agentId' = agentId
  · rw [if_pos heq, if_pos (decide_eq_true heq.symm)]
    rfl
  · rw [if_neg heq, if_neg (by simpa using fun h => heq h.symm)]
    rfl

/-- What the end of a transaction leaves of another one. -/
theorem Prepared.other (h : Prepared d agentId new) (h' : Prepared d agentId' row)
    (hagent : agentId' ≠ agentId) (hid : row.id ≠ new.id) :
    Prepared { d with tasks := d.tasks.insert new } agentId' row := by
  refine ⟨h'.stored, h'.consistent, h'.agent, ?_, fun k r hr => ?_, ?_⟩
  · show GeneralTasks.openCount agentId' (d.tasks.insert new) < 25
    rw [h.openCount, if_neg hagent]
    exact h'.room
  · change (d.tasks.insert new).get k = some r at hr
    rw [Table.get_insert h.id] at hr
    split_ifs at hr
    · cases hr
      rw [NewTask.conflicts, decide_eq_false_iff_not, h.agent, h'.agent]
      exact fun hconflict => hagent hconflict.2.1.symm
    · exact h'.key k r hr
  · show (d.tasks.insert new).get row.id = none
    rw [Table.get_insert h.id, if_neg hid]
    exact h'.id

theorem history_insert (h : Prepared d agentId new) (hh : History d) :
    History { d with tasks := d.tasks.insert new } := by
  obtain ⟨-, hworker, htoken⟩ := h.empty
  have hold : ∀ k r, d.tasks.get k = some r → (d.tasks.insert new).get k = some r := by
    intro k r hr
    rw [Table.get_insert h.id, if_neg]
    · exact hr
    · rintro rfl
      rw [h.id] at hr
      cases hr
  have hget : ∀ k r, (d.tasks.insert new).get k = some r → r = new ∨ d.tasks.get k = some r := by
    intro k r hr
    rw [Table.get_insert h.id] at hr
    split_ifs at hr
    · exact Or.inl (Option.some.inj hr).symm
    · exact Or.inr hr
  refine ⟨hh.drawn, fun g hg => ?_, hh.tokens, fun k r t hr ht => ?_, fun k r hr hw => ?_,
    fun l g l' hsplit hp hfirst => ?_⟩
  · obtain ⟨r, hr, hexecute⟩ := hh.rows g hg
    exact ⟨r, hold _ r hr, hexecute⟩
  · rcases hget k r hr with rfl | hr
    · rw [htoken] at ht
      cases ht
    · exact hh.current k r t hr ht
  · rcases hget k r hr with rfl | hr
    · rw [hworker] at hw
      cases hw
    · exact hh.executed k r hr hw
  · obtain ⟨r, expiry, hr, hrest⟩ := hh.first l g l' hsplit hp hfirst
    exact ⟨r, expiry, hold _ r hr, hrest⟩

theorem keeps_insert (h : Prepared d agentId new) {creating : List (Creating ι)} :
    Keeps H d { d with tasks := d.tasks.insert new, creating := creating } := by
  have hold : ∀ k r, d.tasks.get k = some r → (d.tasks.insert new).get k = some r := by
    intro k r hr
    rw [Table.get_insert h.id, if_neg]
    · exact hr
    · rintro rfl
      rw [h.id] at hr
      cases hr
  refine ⟨le_rfl, .refl _, fun _ _ h => h, fun _ _ h => h, ⟨[], by simp, by simp⟩,
    fun k r hr => ⟨r, hold k r hr, .refl r⟩, fun k r r' t hr hr' _ hne => ?_⟩
  obtain rfl := Option.some.inj ((hold k r hr).symm.trans hr')
  exact hne

variable [DecidableEq ι]

/-- The row of a transaction is in the table when it ends. -/
theorem step_commit (hlocked : ⟨i, agentId, some new⟩ ∈ d.creating) (hinv : Inv H deployment d) :
    Step H deployment i d { d with tasks := d.tasks.insert new, creating := d.without i } := by
  have h := hinv.prepared _ hlocked new rfl
  refine ⟨keeps_insert h, fun _ => ⟨fun k r hr => ?_, fun k r hr => ?_, ?_, fun agentId' => ?_,
    hinv.locks.sublist TaskDb.without_sublist, fun c hc row hrow => ?_,
    hinv.ids.sublist TaskDb.without_sublist,
    (history_insert h hinv.history).same rfl rfl fun _ h => h, hinv.unrefused⟩,
    fun _ hg => Or.inl hg, fun c hc _ => (TaskDb.mem_without.1 hc).1⟩
  · change (d.tasks.insert new).get k = some r at hr
    rw [Table.get_insert h.id] at hr
    split_ifs at hr
    · cases hr
      exact h.ok
    · exact hinv.rows k r hr
  · change (d.tasks.insert new).get k = some r at hr
    rw [Table.get_insert h.id] at hr
    split_ifs at hr
    · cases hr
      exact h.delivered
    · exact hinv.delivered k r hr
  · refine hinv.keys.insert h.id fun k r v hr hv hv' => ?_
    have hconflict := h.key k r hr
    rw [← hv', Option.some.injEq, Prod.mk.injEq, Prod.mk.injEq] at hv
    rw [NewTask.conflicts, decide_eq_false_iff_not] at hconflict
    exact hconflict ⟨hv.1.symm, hv.2.1.symm, hv.2.2.symm⟩
  · show openCount agentId' (d.tasks.insert new) ≤ 25
    rw [h.openCount]
    split_ifs with heq
    · have hroom := h.room
      rw [heq]
      omega
    · exact hinv.limit agentId'
  · obtain ⟨hmem, hi⟩ := TaskDb.mem_without.1 hc
    have hid : row.id ≠ new.id := by
      have hids := hinv.ids.forall hmem hlocked fun heq => hi (by rw [heq])
      exact hids row new hrow rfl
    exact (h.other (hinv.prepared c hmem row hrow) (hinv.others hlocked hc) hid).congr rfl

theorem step_commits {r : Except ApiError Unit} (hinv : Inv H deployment d) (h : Commits i d r d') :
    Step H deployment i d d' := by
  cases h with
  | unsent => exact .refl i d
  | empty locked =>
    exact ⟨keeps_same le_rfl (.refl _) (fun _ _ h => h) (fun _ _ h => h) rfl rfl, fun hinv =>
      inv_same hinv rfl (.refl _) rfl (fun _ h => h) TaskDb.without_sublist hinv.unrefused,
      fun _ hg => Or.inl hg, fun _ hc _ => (TaskDb.mem_without.1 hc).1⟩
  | done locked => exact step_commit locked hinv

end Commit

end GeneralTasks

end Obolos
