import Obolos.Runs.AuditChain
import Obolos.Crash.Reach

/-!
# The audit chain in the table

A `jsonb` column orders the keys of an event, `id`, `hash`, `kind`, …, and not as `appendAudit`
writes them (`reread_event`).  So the first event of every run in the table has a hash that is not
the hash of its text as it is read, unless the two texts collide, and `verifyAudit` rejects the
run (`Stale.not_verified`).
-/

namespace Obolos

namespace Runs

open Json

/-- An event as it is read from the table. -/
def tableEvent (id timestamp actor kind title detail previousHash hash : JsString) : AuditEvent :=
  texts [(js "id", id), (js "hash", hash), (js "kind", kind), (js "actor", actor),
    (js "title", title), (js "detail", detail), (js "timestamp", timestamp),
    (js "previousHash", previousHash)]

/-! ### The order of the keys -/

theorem keyLengths :
    (JsString.utf8 (js "id")).length = 2 ∧ (JsString.utf8 (js "hash")).length = 4 ∧
      (JsString.utf8 (js "kind")).length = 4 ∧ (JsString.utf8 (js "actor")).length = 5 ∧
        (JsString.utf8 (js "title")).length = 5 ∧ (JsString.utf8 (js "detail")).length = 6 ∧
          (JsString.utf8 (js "timestamp")).length = 9 ∧
            (JsString.utf8 (js "previousHash")).length = 12 := by
  decide +kernel

theorem keyBytes :
    JsString.utf8 (js "hash") ≤ JsString.utf8 (js "kind") ∧
      ¬ JsString.utf8 (js "kind") ≤ JsString.utf8 (js "hash") ∧
        JsString.utf8 (js "actor") ≤ JsString.utf8 (js "title") ∧
          ¬ JsString.utf8 (js "title") ≤ JsString.utf8 (js "actor") := by
  decide +kernel

variable {id timestamp actor kind title detail previousHash hash : JsString}

/-- What the table makes of an event that `appendAudit` wrote. -/
theorem reread_event :
    AuditEvent.reread jsonb (texts [(js "id", id), (js "timestamp", timestamp),
      (js "actor", actor), (js "kind", kind), (js "title", title), (js "detail", detail),
      (js "previousHash", previousHash), (js "hash", hash)]) =
    tableEvent id timestamp actor kind title detail previousHash hash := by
  obtain ⟨hid, hhash, hkind, hactor, htitle, hdetail, htime, hprevious⟩ := keyLengths
  obtain ⟨hle, hnle, hle', hnle'⟩ := keyBytes
  rw [AuditEvent.reread, jsonb_texts]
  simp [texts, tableEvent, jsonbLe, *]

/-- What the table makes of an event that it has handed out. -/
theorem reread_tableEvent :
    AuditEvent.reread jsonb (tableEvent id timestamp actor kind title detail previousHash hash) =
    tableEvent id timestamp actor kind title detail previousHash hash := by
  obtain ⟨hid, hhash, hkind, hactor, htitle, hdetail, htime, hprevious⟩ := keyLengths
  obtain ⟨hle, hnle, hle', hnle'⟩ := keyBytes
  rw [tableEvent, AuditEvent.reread, jsonb_texts]
  simp [texts, jsonbLe, *]

/-! ### Stale chains -/

variable {P : Platform} {events : List AuditEvent}

/-- The chain of a run in the table: the first event has the hash it was given. -/
def Stale (P : Platform) (events : List AuditEvent) : Prop :=
  ∃ (id timestamp : JsString) (actor : Actor) (kind : Kind) (title detail : JsString)
    (rest : List AuditEvent), events = tableEvent id timestamp actor.text kind.text title detail
      (js "genesis") (eventHash P.host.numerals P.sha
        (auditEntry (.str (js "genesis")) id timestamp actor kind title detail)) :: rest

/-- What `verifyAudit` hashes of an event of the table. -/
theorem body_tableEvent :
    (tableEvent id timestamp actor kind title detail previousHash hash).body =
      texts [(js "id", id), (js "kind", kind), (js "actor", actor), (js "title", title),
        (js "detail", detail), (js "timestamp", timestamp), (js "previousHash", previousHash)] := by
  have hkeys : js "id" ≠ js "hash" ∧ js "kind" ≠ js "hash" ∧ js "actor" ≠ js "hash" ∧
      js "title" ≠ js "hash" ∧ js "detail" ≠ js "hash" ∧ js "timestamp" ≠ js "hash" ∧
        js "previousHash" ≠ js "hash" := by decide
  simp [AuditEvent.body, tableEvent, texts, hkeys]

theorem texts_texts (fields : List (JsString × JsString)) :
    AuditEvent.Texts (texts fields) := by
  intro f hf
  obtain ⟨field, -, rfl⟩ := List.mem_map.1 hf
  exact ⟨field.2, rfl⟩

namespace Stale

/-- **A run from the table is not verified.** -/
theorem not_verified (hsha : Function.Injective P.sha.digest) (h : Stale P events) :
    verifyAudit P.host.numerals P.sha events = false := by
  obtain ⟨id, timestamp, actor, kind, title, detail, rest, rfl⟩ := h
  rw [← Bool.not_eq_true]
  intro hverify
  simp only [verifyAudit, verifyFrom, Bool.and_eq_true, isText_iff] at hverify
  have hhash := hverify.1.2
  rw [body_tableEvent] at hhash
  have hentry : auditEntry (.str (js "genesis")) id timestamp actor kind title detail =
      texts [(js "id", id), (js "timestamp", timestamp), (js "actor", actor.text),
        (js "kind", kind.text), (js "title", title), (js "detail", detail),
        (js "previousHash", js "genesis")] := rfl
  have hget : get (js "hash") (tableEvent id timestamp actor.text kind.text title detail
      (js "genesis") (eventHash P.host.numerals P.sha
        (auditEntry (.str (js "genesis")) id timestamp actor kind title detail))) =
      some (.str (eventHash P.host.numerals P.sha
        (auditEntry (.str (js "genesis")) id timestamp actor kind title detail))) := rfl
  rw [hget, Option.some.injEq, Json.str.injEq, hentry] at hhash
  -- the second key of the one is `timestamp`, of the other `kind`
  have hbody := eventHash_inj hsha (texts_texts _) (texts_texts _) hhash
  have hkey : js "timestamp" = js "kind" :=
    congrArg Prod.fst (List.cons.inj (List.cons.inj hbody).2).1
  exact absurd hkey (by decide)

theorem append (h : Stale P events) (id timestamp : JsString) (actor : Actor) (kind : Kind)
    (title detail : JsString) :
    Stale P (appendAudit P.host.numerals P.sha events id timestamp actor kind title detail) := by
  obtain ⟨id', timestamp', actor', kind', title', detail', rest, rfl⟩ := h
  exact ⟨id', timestamp', actor', kind', title', detail', _, rfl⟩

/-- Storing it again changes nothing at the start of the chain. -/
theorem map_reread (h : Stale P events) : Stale P (events.map (AuditEvent.reread jsonb)) := by
  obtain ⟨id, timestamp, actor, kind, title, detail, rest, rfl⟩ := h
  rw [List.map_cons, reread_tableEvent]
  exact ⟨id, timestamp, actor, kind, title, detail, _, rfl⟩

/-- A new run is stored so. -/
theorem new (id timestamp : JsString) (actor : Actor) (kind : Kind) (title detail : JsString) :
    Stale P ((appendAudit P.host.numerals P.sha [] id timestamp actor kind title detail).map
      (AuditEvent.reread jsonb)) := by
  refine ⟨id, timestamp, actor, kind, title, detail, [], ?_⟩
  exact congrArg (· :: []) reread_event

end Stale

/-! ### The table -/

namespace TableChain

/-- Every run in the table has a stale chain. -/
def Inv (P : Platform) (d : World) : Prop := ∀ row ∈ d.rows, Stale P row.run.events

/-- Every process keeps that, and relies on it. -/
def protocol (P : Platform) : Protocol ℕ World := ⟨Inv P, fun _ _ => Inv P, fun _ _ => Inv P⟩

/-- What a request handler is verified against. -/
def spec (P : Platform) : Prog.Spec World Effect Answer JsError :=
  ⟨fun _ => Inv P, work, fun _ => Inv P⟩

variable {env : ProcessEnv} {d d' : World} {owner marker : JsString} {run : Run}

/-! ### The statements -/

/-- A statement that leaves every run of the table stale. -/
theorem inv_answers {α : Type} {f : Statement (List Row) JsError α} {r : Except JsError α}
    (hf : ∀ a rows, f d.rows = .ok (a, rows) → ∀ row ∈ rows, Stale P row.run.events)
    (hd : Inv P d) (h : answers d f r d') : Inv P d' := by
  obtain ⟨rows, ha, rfl⟩ := h
  rcases ha.changes with rfl | ⟨a, ha⟩
  · exact hd
  · exact hf a rows ha

theorem inv_insertRow {r : Except JsError Bool} (hd : Inv P d)
    (hrun : Stale P (run.reread jsonb).events) (h : answers d (insertRow owner run) r d') :
    Inv P d' := by
  refine inv_answers (fun a rows hrows row hrow => ?_) hd h
  unfold insertRow at hrows
  split_ifs at hrows
  · cases hrows
    rcases List.mem_append.1 hrow with hrow | hrow
    · exact hd row hrow
    · rw [List.mem_singleton.1 hrow]
      exact hrun
  · cases hrows
    exact hd row hrow

theorem inv_selectRow {r : Except JsError (Option Run)} (hd : Inv P d)
    (h : answers d (selectRow owner id) r d') :
    Inv P d' ∧ ∀ run, r = .ok (some run) → Stale P run.events := by
  obtain ⟨rows, ha, rfl⟩ := h
  obtain ⟨rfl, hr⟩ := ha.read
  refine ⟨hd, fun run hrun => ?_⟩
  obtain ⟨row, hrow, rfl⟩ := Option.map_eq_some_iff.1 (hr _ hrun).symm
  exact hd row (List.mem_of_find?_eq_some hrow)

theorem inv_claimRow {r : Except JsError (Option Run)} (hd : Inv P d)
    (h : answers d (claimRow owner id marker) r d') :
    Inv P d' ∧ ∀ run, r = .ok (some run) → Stale P run.events := by
  constructor
  · refine inv_answers (fun a rows hrows row hrow => ?_) hd h
    obtain ⟨-, rfl⟩ := Prod.mk.inj (Except.ok.inj hrows)
    obtain ⟨x, hx, rfl⟩ := List.mem_map.1 hrow
    split_ifs
    · exact hd x hx
    · exact hd x hx
  · rintro run rfl
    obtain ⟨rows, ha, -⟩ := h
    have hfind := (Prod.mk.inj (Except.ok.inj ha.ok)).1
    obtain ⟨row, hrow, rfl⟩ := Option.map_eq_some_iff.1 hfind
    exact hd row (List.mem_of_find?_eq_some hrow)

theorem inv_saveFailed {r : Except JsError Unit} (hd : Inv P d)
    (hrun : Stale P (run.reread jsonb).events) (h : answers d (saveFailed owner id marker run) r d') :
    Inv P d' := by
  refine inv_answers (fun a rows hrows row hrow => ?_) hd h
  obtain ⟨-, rfl⟩ := Prod.mk.inj (Except.ok.inj hrows)
  obtain ⟨x, hx, rfl⟩ := List.mem_map.1 hrow
  split_ifs
  · exact hrun
  · exact hd x hx

theorem inv_saveResult {r : Except JsError Bool} (hd : Inv P d)
    (hrun : Stale P (run.reread jsonb).events) (h : answers d (saveResult owner id marker run) r d') :
    Inv P d' := by
  refine inv_answers (fun a rows hrows row hrow => ?_) hd h
  obtain ⟨-, rfl⟩ := Prod.mk.inj (Except.ok.inj hrows)
  obtain ⟨x, hx, rfl⟩ := List.mem_map.1 hrow
  split_ifs
  · exact hrun
  · exact hd x hx

/-! ### The programs -/

theorem inv_engine {o : Effect} {r : Except JsError (Answer o)} (ho : o.isEngine) (hd : Inv P d)
    (h : work d o r d') : Inv P d' := fun row hrow => hd row ((work_engine ho h).2 ▸ hrow)

theorem logInvariant : LogInvariant (P.withTable env) (spec P)
    (fun events d => Stale P events ∧ Inv P d) where
  append _ _ _ _ _ _ h := ⟨h.1.append .., h.2⟩
  effect ho h hrely hsem :=
    ⟨inv_engine ho hrely hsem, h.1, inv_engine ho hrely hsem⟩

theorem stable : Stable (spec P) (Inv P) where
  effect ho _ hrely hsem := ⟨inv_engine ho.isEngine hrely hsem, inv_engine ho.isEngine hrely hsem⟩

/-- The rule of one effect. -/
theorem wp_perform {o : Effect} {Q : Except JsError (Answer o) → World → Prop}
    (h : ∀ d₁ r d₂, Inv P d₁ → work d₁ o r d₂ → Inv P d₂ ∧ Q r d₂) :
    (perform o).wp (spec P) Q d := by
  unfold perform
  rw [Prog.wp_await]
  intro d₁ hrely r d₂ hsem
  exact h d₁ r d₂ hrely hsem

theorem wp_create {input : RunInput} (hd : Inv P d) :
    (do
      let run ← createRun (P.withTable env) input
      NeonDemoStore.insert owner run).wp (spec P) (fun _ _ => True) d := by
  rw [Prog.wp_bind]
  refine stable.wp_createRun rfl (fun _ => stable (P := P)) ?_ hd
    (fun _ _ _ => trivial) ?_
  · rintro d d₁ id - hrely -
    exact ⟨hrely, hrely⟩
  · rintro id _ d - ⟨-, _, _, eventId, timestamp, detail, updatedAt, rfl⟩
    show Prog.wp _ _ _ _
    unfold NeonDemoStore.insert
    rw [Prog.wp_bind]
    refine wp_perform fun d₁ r d₂ hd₁ hsem => ⟨inv_insertRow hd₁ (Stale.new ..) hsem, ?_⟩
    cases r with
    | error e => trivial
    | ok b => exact Prog.wp_ite (fun _ => Prog.wp_throw.2 trivial) fun _ => Prog.wp_pure.2 trivial

theorem wp_get : (NeonDemoStore.get owner id).wp (spec P)
    (fun r _ => ∀ run, r = .ok run → Stale P run.events) d := by
  unfold NeonDemoStore.get
  rw [Prog.wp_bind]
  refine wp_perform fun d₁ r d₂ hd₁ hsem => ?_
  obtain ⟨hd₂, hrun⟩ := inv_selectRow hd₁ hsem
  refine ⟨hd₂, ?_⟩
  rcases r with e | _ | run
  · intro run hr
    cases hr
  · refine Prog.wp_throw.2 fun run hr => ?_
    cases hr
  · refine Prog.wp_pure.2 fun run' hr => ?_
    cases hr
    exact hrun run rfl

theorem wp_mutate {action : RunAction} :
    (NeonDemoStore.mutate owner id (action.run (P.withTable env))).wp (spec P)
      (fun _ _ => True) d := by
  unfold NeonDemoStore.mutate
  rw [Prog.wp_bind]
  refine wp_perform fun d₁ r d₂ hd₁ hsem => ⟨inv_engine (by trivial) hd₁ hsem, ?_⟩
  cases r with
  | error e => trivial
  | ok marker =>
    show Prog.wp _ _ _ _
    rw [Prog.wp_bind]
    refine wp_perform fun d₁ r d₂ hd₁ hsem => ?_
    obtain ⟨hd₂, hrun⟩ := inv_claimRow hd₁ hsem
    refine ⟨hd₂, ?_⟩
    rcases r with e | _ | run
    · trivial
    · show Prog.wp _ _ _ _
      rw [Prog.wp_bind]
      refine Prog.wp_mono wp_get fun r d _ => ?_
      cases r with
      | error e => trivial
      | ok run => exact Prog.wp_throw.2 trivial
    · show Prog.wp _ _ _ _
      refine Method.wp_call (Method.wp_mono
        (logInvariant.action action _ d₂ ⟨hrun run rfl, hd₂⟩) ?_)
      rintro result run d ⟨hrun, hd⟩
      cases result with
      | error e =>
        show Prog.wp _ _ _ _
        rw [Prog.wp_bind]
        refine wp_perform fun d₁ r d₂ hd₁ hsem =>
          ⟨inv_saveFailed hd₁ (by exact hrun.map_reread) hsem, ?_⟩
        cases r with
        | error e => trivial
        | ok u => exact Prog.wp_throw.2 trivial
      | ok u =>
        show Prog.wp _ _ _ _
        rw [Prog.wp_bind]
        refine wp_perform fun d₁ r d₂ hd₁ hsem => ⟨inv_saveResult hd₁ hrun.map_reread hsem, ?_⟩
        cases r with
        | error e => trivial
        | ok b =>
          exact Prog.wp_ite (fun _ => Prog.wp_throw.2 trivial) fun _ => Prog.wp_pure.2 trivial

theorem sound : (protocol P).Sound (Store.system P .table) where
  rely_refl _ _ hd := hd
  rely_trans _ _ _ _ _ h := h
  guar_inv _ _ _ _ h := h
  guar_rely _ _ _ _ _ h _ := h
  env_inv _ _ _ _ h := h.elim
  env_rely _ _ _ _ _ h := h.elim
  start i d p hd hp := by
    cases hp with
    | create env owner input => exact wp_create hd
    | get env owner id => exact Prog.wp_mono wp_get fun _ _ _ => trivial
    | mutate env owner id action => exact wp_mutate

theorem inv_empty : Inv P World.empty := fun _ h => (List.not_mem_nil h).elim

end TableChain

/-! ### What `get` returns -/

section

variable {s t : System.State Unit World Effect Answer JsError Run}
  {τ : List (Tr (System.State Unit World Effect Answer JsError Run)
    (System.Action Unit Effect Answer JsError Run))} {owner : JsString} {env : ProcessEnv} {run : Run}

/-- From the file. -/
theorem file_get (h : (Store.system P .file).lts.Run (System.State.idle World.empty) τ s)
    (hfree : s.processes () = none)
    (ha : (Store.system P .file).Answers s () (RunStore.get (P.withFile env) owner id) (.ok run) t) :
    verifyAudit P.host.numerals P.sha run.events = true := by
  have hrun := Sequential.answers FileChain.sound FileChain.inv_empty h
    (Store.Operation.get env owner id) hfree (FileChain.wp_get (FileChain.sound.run
      FileChain.inv_empty h).1) ha
  exact hrun.2.verified

variable {s t : System.State ℕ World Effect Answer JsError Run}
  {τ : List (Tr (System.State ℕ World Effect Answer JsError Run)
    (System.Action ℕ Effect Answer JsError Run))} {i : ℕ}

/-- From the table. -/
theorem table_get (h : (Store.system P .table).lts.Run (System.State.idle World.empty) τ s)
    (hfree : s.processes i = none)
    (ha : (Store.system P .table).Answers s i (NeonDemoStore.get owner id) (.ok run) t) :
    Stale P run.events := by
  have hs := TableChain.sound.run TableChain.inv_empty h
  exact TableChain.sound.answers (Q := fun r _ => ∀ run : Run, r = .ok run → Stale P run.events) hs
    (Store.Operation.get ⟨none, none⟩ owner id) hfree (fun _ _ _ _ hq => hq)
    (TableChain.wp_get) ha run rfl

end

/-! ### Both stores -/

/-- `get` through a store, by some process, after some run from the first start of the service. -/
def Store.Gets (P : Platform) (store : Store) (run : Run) : Prop :=
  ∃ τ s t i env owner id, (store.system P).lts.Run (System.State.idle World.empty) τ s ∧
    s.processes i = none ∧
      (store.system P).Answers s i (store.get (store.context P env) owner id) (.ok run) t

/-- **The file keeps the chain, the table does not.**  Without collisions of the hash function,
the chain of a run that `get` returns is verified if and only if the run is kept in the file; and
a verified chain is determined by the hash it ends in. -/
theorem verifyAudit_iff_file (P : Platform) (hsha : Function.Injective P.sha.digest) :
    (∀ (store : Store) (run : Run), store.Gets P run →
      (verifyAudit P.host.numerals P.sha run.events = true ↔ store = .file)) ∧
    ∀ events events' : List AuditEvent, (∀ e ∈ events, e.Texts) → (∀ e ∈ events', e.Texts) →
      verifyAudit P.host.numerals P.sha events = true →
        verifyAudit P.host.numerals P.sha events' = true → lastHash events = lastHash events' →
          List.Forall₂ (fun e e' => Same (.obj e) (.obj e')) events events' := by
  refine ⟨fun store run hget => ?_, fun _ _ => verifyAudit_unique hsha⟩
  obtain ⟨τ, s, t, i, env, owner, id, hrun, hfree, ha⟩ := hget
  cases store with
  | file => exact ⟨fun _ => rfl, fun _ => file_get hrun hfree ha⟩
  | table =>
    have hfalse := (table_get hrun hfree ha).not_verified hsha
    constructor
    · intro h
      rw [hfalse] at h
      cases h
    · intro h
      cases h

namespace Sample

/-- A run for one repository. -/
def input : RunInput := ⟨[js "a/b"], none, none, none, none, none, none⟩

/-- A gateway that has nothing to offer. -/
def gateway : Gateway where
  providers := []
  data purchase := ([], ⟨purchase.requestId, [], [], [], 0, [], none⟩)
  summary := []
  checked purchase := (⟨purchase.requestId, [], [], [], 0, [], none⟩, none)

/-- The environment of the process. -/
def env : ProcessEnv := ⟨none, none⟩

/-- Create a run. -/
def create (store : Store) : Exec Run := do
  let run ← createRun (store.context .plain env) input
  store.insert (store.context .plain env) (js "owner") run

/-- The world after a run was created. -/
def world (store : Store) : World := ((create store).exec gateway.respond World.empty).2

/-- What `get` returns then. -/
def got (store : Store) : Except JsError Run :=
  ((store.get (store.context .plain env) (js "owner") (js "a")).exec gateway.respond
    (world store)).1

theorem got_ok (store : Store) : ∃ run, got store = .ok run := by
  have hok : (got store).toBool = true := by cases store <;> decide +kernel
  cases h : got store with
  | ok run => exact ⟨run, rfl⟩
  | error e => rw [h] at hok; cases hok

/-- A run that can be got from either store. -/
theorem gets (store : Store) : ∃ run, store.Gets .plain run := by
  obtain ⟨run, hok⟩ := got_ok store
  have hstart : ∀ i, (store.system .plain).starts i World.empty (create store) := fun _ =>
    .create env (js "owner") input
  obtain ⟨i⟩ : Nonempty store.Process := by
    cases store with
    | file => exact ⟨()⟩
    | table => exact ⟨(0 : ℕ)⟩
  obtain ⟨τ, hrun⟩ := System.run_exec (S := store.system .plain) (i := i)
    (s := System.State.idle World.empty) gateway.respond_work rfl (hstart i)
  have ha := System.answers_exec (S := store.system .plain) (i := i) gateway.respond_work
    (store.get (store.context .plain env) (js "owner") (js "a")) ⟨world store, fun _ => none⟩
  have hr : ((store.get (store.context .plain env) (js "owner") (js "a")).exec gateway.respond
      (world store)).1 = .ok run := hok
  rw [hr] at ha
  exact ⟨run, τ, _, _, i, env, _, _, hrun, rfl, ha⟩

end Sample

theorem verifyAudit_iff_file_sample :
    (∃ run, Store.file.Gets .plain run ∧
      verifyAudit Platform.plain.host.numerals Platform.plain.sha run.events = true) ∧
    ∃ run, Store.table.Gets .plain run ∧
      verifyAudit Platform.plain.host.numerals Platform.plain.sha run.events = false := by
  have hiff := (verifyAudit_iff_file .plain Sha256.plain_injective).1
  obtain ⟨run, hget⟩ := Sample.gets .file
  obtain ⟨run', hget'⟩ := Sample.gets .table
  refine ⟨⟨run, hget, (hiff .file run hget).2 rfl⟩, run', hget', ?_⟩
  rw [← Bool.not_eq_true, hiff .table run' hget']
  intro h
  cases h

/-- A run in the table whose chain is not verified. -/
theorem table_run_not_verified :
    ∃ run, Store.table.Gets .plain run ∧
      verifyAudit Platform.plain.host.numerals Platform.plain.sha run.events = false := by
  obtain ⟨run, hget⟩ := Sample.gets .table
  obtain ⟨τ, s, t, i, env, owner, id, hrun, hfree, ha⟩ := hget
  exact ⟨run, ⟨τ, s, t, i, env, owner, id, hrun, hfree, ha⟩,
    (table_get hrun hfree ha).not_verified Sha256.plain_injective⟩

end Runs

end Obolos
