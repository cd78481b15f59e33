import Obolos.Runs.SpendingEngine
import Obolos.Runs.TableChain

/-!
# What a run spends, in the file

The operations of `RunStore` keep the invariant of the file and of the calls of the gateway
(`Server.sound`): `mutate` writes the marker before it lets the action call the gateway, and a run
that is found with a marker has failed.  So over every run of the server nothing is paid for twice,
and nothing beyond the budgets (`payments_once`).
-/

namespace Obolos

namespace Runs

open Json

variable {P : Server} {env : ProcessEnv} {d : World}

/-- The operations of the server, in the environments that it is started with. -/
inductive Server.Operation (P : Server) : Exec Run → Prop
  | create {env : ProcessEnv} (henv : P.environments env) (owner : JsString) (input : RunInput) :
      Operation P (do
        let run ← createRun (P.withFile env) input
        RunStore.insert (P.withFile env) owner run)
  | get {env : ProcessEnv} (henv : P.environments env) (owner id : JsString) :
      Operation P (RunStore.get (P.withFile env) owner id)
  | mutate {env : ProcessEnv} (henv : P.environments env) (owner id : JsString)
      (action : RunAction) :
      Operation P (RunStore.mutate (P.withFile env) owner id (action.run (P.withFile env)))

/-- The server: one process, which may crash and be started again. -/
abbrev Server.system (P : Server) : System Unit World Effect Answer JsError Run :=
  Sequential.system work P.Operation

/-! ### Effects -/

theorem wp_clock {Q : Except JsError ℤ → World → Prop} (hd : Inv P d)
    (hQ : ∀ time, Q (.ok time) d) : (perform .now).wp (spending P).spec Q d := by
  refine Sequential.wp_await fun r d' hsem => ?_
  obtain ⟨⟨time, rfl⟩, rfl⟩ := hsem
  exact ⟨Allowed.refl hd, hQ time⟩

theorem wp_draw {Q : Except JsError JsString → World → Prop} (hd : Inv P d)
    (hQ : ∀ id, Q (.ok id) { d with uuids := id :: d.uuids }) :
    (perform .randomUUID).wp (spending P).spec Q d := by
  refine Sequential.wp_await fun r d' hsem => ?_
  obtain ⟨id, rfl, -, rfl⟩ := hsem
  exact ⟨Allowed.draw hd id, hQ id⟩

theorem wp_write {records : List StoredRun} {Q : Except JsError Unit → World → Prop}
    (hd : Inv P d) (hwrite : Allowed P d { d with records := records })
    (hok : ∀ r, Q r { d with records := records }) (herror : ∀ e, Q (.error e) d) :
    (perform (.writeRuns records)).wp (spending P).spec Q d := by
  refine Sequential.wp_await fun r d' hsem => ?_
  rcases hsem with rfl | ⟨⟨e, rfl⟩, rfl⟩
  · exact ⟨hwrite, hok r⟩
  · exact ⟨Allowed.refl hd, herror e⟩

theorem wp_read {Q : Except JsError (List StoredRun) → World → Prop} (hd : Inv P d)
    (hok : ∀ records, List.Forall₂ Similar d.records records → Q (.ok records) d)
    (herror : ∀ e, Q (.error e) d) :
    (RunStore.read (P.withFile env)).wp (spending P).spec Q d := by
  unfold RunStore.read
  rw [Prog.wp_bind, Prog.wp_tryCatch]
  refine Sequential.wp_await fun r d' hsem => ⟨?_, ?_⟩
  · obtain ⟨-, rfl⟩ := hsem
    exact Allowed.refl hd
  · obtain ⟨hr, rfl⟩ := hsem
    cases r with
    | error e => exact Prog.wp_throw.2 (herror _)
    | ok records =>
      obtain rfl := hr records rfl
      exact Prog.wp_pure.2 (hok _ (similar_reread _ _))

/-! ### The operations -/

/-- The record `z` of the file as an operation goes on with it. -/
structure Resumed (P : Server) (d : World) (z x : StoredRun) : Prop where
  owner : x.owner = z.owner
  inFlight : x.inFlight = none
  evolves : Evolves P z.run x.run
  accounts : Accounts P x.run
  opened : ¬ x.run.status.final → Open d x.run

/-- A record with the marker of an operation that did not end has failed. -/
theorem wp_recover {z x : StoredRun} {Q : Except JsError StoredRun → World → Prop} (hd : Inv P d)
    (hz : z ∈ d.records) (hx : Similar z x)
    (hQ : ∀ x' d', Inv P d' → d'.records = d.records → Resumed P d' z x' → Q (.ok x') d') :
    (RunStore.recover (P.withFile env) x).wp (spending P).spec Q d := by
  obtain ⟨events, rfl⟩ := hx
  have haccounts := hd.accounts z hz
  unfold RunStore.recover
  split
  · rename_i hfree
    refine Prog.wp_pure.2 (hQ _ d hd rfl ⟨rfl, hfree, ?_, ?_, fun hfinal => ?_⟩)
    · exact (Evolves.refl z.run).logged events z.run.updatedAt
    · exact haccounts.logged events z.run.updatedAt
    · have hopen := hd.going z hz hfree hfinal
      exact ⟨hopen.data, hopen.verification⟩
  · rw [Prog.wp_bind]
    refine wp_draw hd fun id => ?_
    show Prog.wp _ _ _ _
    rw [Prog.wp_bind]
    refine wp_clock (hd.draw id) fun time => ?_
    refine Prog.wp_pure.2 (hQ _ _ (hd.draw id) rfl ⟨rfl, rfl, ?_, ?_, fun hfinal => ?_⟩)
    · exact ((Evolves.refl z.run).failed _).logged _ z.run.updatedAt
    · exact (haccounts.failed _).logged _ z.run.updatedAt
    · exact absurd (Or.inr rfl) hfinal

/-- The next version of the record `z`. -/
theorem Resumed.next {z x : StoredRun} (h : Resumed P d z x) (inFlight : Option (Stage × JsString)) :
    Next P d z { x with inFlight := inFlight } :=
  ⟨⟨h.owner, h.evolves⟩, h.accounts, fun _ => h.opened⟩

theorem wp_get {owner id : JsString} (hd : Inv P d) :
    (RunStore.get (P.withFile env) owner id).wp (spending P).spec (fun _ _ => True) d := by
  unfold RunStore.get
  rw [Prog.wp_bind]
  refine wp_read hd (fun records hrecords => ?_) fun _ => trivial
  show Prog.wp _ _ _ _
  beta_reduce
  split
  · exact Prog.wp_throw.2 trivial
  · rename_i before record after hlocate
    obtain ⟨rfl, -⟩ := RunStore.locate_eq_some hlocate
    obtain ⟨z, hz, hzx⟩ := exists_left hrecords (b := record) (by simp)
    rw [Prog.wp_bind]
    exact wp_recover hd hz hzx fun _ _ _ _ _ => Prog.wp_pure.2 trivial

/-- Saving the record of the run after the action. -/
theorem Ended.allowed {before after : List StoredRun} {x : StoredRun} {run : Run}
    (h : Ended P (before ++ x :: after) x run d) :
    Allowed P d { d with
      records := before ++ { x with run := run, inFlight := none } :: after } := by
  have hrecords : List.Forall₂ Similar d.records (before ++ x :: after) :=
    h.during.records ▸ similar_refl _
  refine Allowed.replace h.during.inv hrecords fun z hz hzx => ?_
  have hx : x ∈ d.records := by
    rw [h.during.records]
    simp
  obtain ⟨events, hevents⟩ := hzx
  obtain rfl : z = x := h.during.inv.unique hz hx (by rw [hevents])
  exact ⟨⟨rfl, h.during.evolves⟩, h.during.accounts, fun _ => h.opened⟩

/-- The end of `mutate`: the record is saved, also when the action threw. -/
theorem wp_save {result : Except JsError Unit} {run : Run} {done : List StoredRun} (hd : Inv P d)
    (hdone : Allowed P d { d with records := done }) :
    (tryCatch (do
      Prog.ofExcept result
      perform (.writeRuns done)
      return run) fun error => do
        perform (.writeRuns done)
        throw error : Exec Run).wp (spending P).spec (fun _ _ => True) d := by
  have hcatch : ∀ (error : JsError) (d : World), Inv P d → Allowed P d { d with records := done } →
      (do
        perform (.writeRuns done)
        throw error : Exec Run).wp (spending P).spec (fun _ _ => True) d := by
    intro error d hd hdone
    rw [Prog.wp_bind]
    refine wp_write hd hdone (fun r => ?_) fun _ => trivial
    cases r with
    | error e => trivial
    | ok u => exact Prog.wp_throw.2 trivial
  rw [Prog.wp_tryCatch, Prog.wp_bind, Prog.wp_ofExcept]
  cases result with
  | error e => exact hcatch e d hd hdone
  | ok u =>
    show Prog.wp _ _ _ _
    rw [Prog.wp_bind]
    refine wp_write hd hdone (fun r => ?_) fun e => hcatch e d hd hdone
    cases r with
    | error e => exact hcatch e _ hdone.inv (Allowed.refl hdone.inv)
    | ok u => exact Prog.wp_pure.2 trivial

theorem wp_mutate {owner id : JsString} {action : RunAction} (henv : P.environments env)
    (hd : Inv P d) :
    (RunStore.mutate (P.withFile env) owner id (action.run (P.withFile env))).wp (spending P).spec
      (fun _ _ => True) d := by
  unfold RunStore.mutate
  rw [Prog.wp_bind]
  refine wp_read hd (fun records hrecords => ?_) fun _ => trivial
  show Prog.wp _ _ _ _
  beta_reduce
  split
  · exact Prog.wp_throw.2 trivial
  · rename_i before record after hlocate
    obtain ⟨rfl, -⟩ := RunStore.locate_eq_some hlocate
    obtain ⟨z, hz, hzx⟩ := exists_left hrecords (b := record) (by simp)
    rw [Prog.wp_bind]
    refine wp_recover hd hz hzx fun x d hd hsame hresumed => ?_
    show Prog.wp _ _ _ _
    rw [Prog.wp_bind]
    refine wp_clock hd fun time => ?_
    show Prog.wp _ _ _ _
    rw [Prog.wp_bind]
    -- the marker
    have hz : z ∈ d.records := hsame ▸ hz
    have hmark : Allowed P d { d with records := before ++ { x with
        inFlight := some (x.run.stage, P.isoString time) } :: after } := by
      refine Allowed.replace hd (hsame ▸ hrecords) fun z' hz' hzx' => ?_
      obtain ⟨events, hevents⟩ := hzx
      obtain ⟨events', hevents'⟩ := hzx'
      have hid : z'.run.id = z.run.id := by
        have h₁ : record.run.id = z.run.id := by rw [hevents]
        have h₂ : record.run.id = z'.run.id := by rw [hevents']
        exact h₂.symm.trans h₁
      obtain rfl : z' = z := hd.unique hz' hz hid
      exact hresumed.next _
    refine wp_write hd hmark (fun r => ?_) fun _ => trivial
    cases r with
    | error e => trivial
    | ok u =>
      show Prog.wp _ _ _ _
      -- the action
      have hstart : Start P (before ++ { x with
          inFlight := some (x.run.stage, P.isoString time) } :: after)
          { x with inFlight := some (x.run.stage, P.isoString time) }
          { d with records := before ++ { x with
            inFlight := some (x.run.stage, P.isoString time) } :: after } := by
        refine ⟨hmark.inv, rfl, by simp, by simp, fun hfinal => ?_⟩
        have hopen := hresumed.opened hfinal
        exact ⟨hopen.data, hopen.verification⟩
      refine Method.wp_call (Method.wp_mono (hstart.action henv action) ?_)
      intro result run d h
      have hdone : Allowed P d { d with records := before ++ { x with run := run } :: after } := by
        rw [hresumed.inFlight]
        exact h.allowed
      show Prog.wp _ _ _ _
      exact wp_save h.during.inv hdone

/-- The clock and the identifiers. -/
theorem stable {W : World → Prop} (hinv : ∀ {d}, W d → Inv P d)
    (hdraw : ∀ {d} id, W d → W { d with uuids := id :: d.uuids }) :
    Stable (spending P).spec W where
  effect {o} _ _ _ _ ho h hrely hsem := by
    cases hrely
    cases o with
    | now =>
      obtain ⟨-, rfl⟩ := hsem
      exact ⟨Allowed.refl (hinv h), h⟩
    | randomUUID =>
      obtain ⟨id, -, -, rfl⟩ := hsem
      exact ⟨Allowed.draw (hinv h) id, hdraw id h⟩
    | _ => exact ho.elim

/-- An identifier that no record has. -/
structure Unused (P : Server) (id : JsString) (d : World) : Prop where
  inv : Inv P d
  drawn : id ∈ d.uuids
  unused : ∀ x ∈ d.records, x.run.id ≠ id

theorem wp_create {owner : JsString} {input : RunInput} (hd : Inv P d) :
    (do
      let run ← createRun (P.withFile env) input
      RunStore.insert (P.withFile env) owner run : Exec Run).wp (spending P).spec
        (fun _ _ => True) d := by
  rw [Prog.wp_bind]
  refine (stable (W := Inv P) (fun h => h) fun id h => h.draw id).wp_createRun rfl
    (fun id => stable (W := Unused P id) (fun h => h.inv) fun id' h =>
      ⟨h.inv.draw id', List.mem_cons_of_mem _ h.drawn, h.unused⟩) ?_ hd (fun _ _ _ => trivial) ?_
  · rintro d _ id hd rfl hfresh
    refine ⟨Allowed.draw hd id, hd.draw id, List.mem_cons_self, fun x hx hid => ?_⟩
    exact hfresh (hid ▸ hd.drawn x hx)
  · intro id run d hunused hcreated
    obtain ⟨hid, haccounts, -, hreceipts⟩ := accounts_created (P := P) hcreated
    show (RunStore.insert (P.withFile env) owner run).wp _ _ _
    unfold RunStore.insert
    rw [Prog.wp_bind]
    refine wp_read hunused.inv (fun records hrecords => ?_) fun _ => trivial
    refine Prog.wp_ite (fun _ => Prog.wp_throw.2 trivial) fun _ => ?_
    refine Prog.wp_ite (fun _ => Prog.wp_throw.2 trivial) fun _ => ?_
    rw [Prog.wp_bind]
    have hnext : List.Forall₂ (Next P d) d.records records :=
      ((List.forall₂_and_left _ _).2 ⟨fun _ hz => hz, hrecords⟩).imp fun z x hzx =>
        Next.of_similar hunused.inv hzx.1 hzx.2
    have hinsert : Allowed P d { d with records := records ++ [⟨owner, run, none⟩] } := by
      refine Allowed.write hunused.inv hnext (List.nodup_singleton _) fun x hx => ?_
      rw [List.mem_singleton.1 hx]
      subst hid
      exact ⟨hunused.drawn, hunused.unused, haccounts, hreceipts⟩
    refine wp_write hunused.inv hinsert (fun r => ?_) fun _ => trivial
    cases r with
    | error e => trivial
    | ok u => exact Prog.wp_pure.2 trivial

/-- **The operations keep the invariant.** -/
theorem Server.sound (P : Server) : (spending P).protocol.Sound P.system :=
  Sequential.sound fun p d hp hd => by
    cases hp with
    | create henv owner input => exact wp_create hd
    | get henv owner id => exact wp_get hd
    | mutate henv owner id action => exact wp_mutate henv hd

/-! ### Over every run -/

/-- What a later state of the file keeps of an earlier one. -/
structure Kept (d d' : World) (x y : StoredRun) : Prop where
  owner : y.owner = x.owner
  id : y.run.id = x.run.id
  receipts : x.run.receipts <+: y.run.receipts
  evidence : x.run.evidence <+: y.run.evidence
  /-- A run that has ended stays so, and the gateway is not called for it any more. -/
  final : x.run.status.final →
    y.run.status.final ∧ d'.callsFor x.run.id = d.callsFor x.run.id

/-- Every record is kept. -/
def Later (d d' : World) : Prop := ∀ x ∈ d.records, ∃ y ∈ d'.records, Kept d d' x y

/-- A step does to every run what is allowed. -/
def Moved (P : Server) (d d' : World) : Prop :=
  ∀ x ∈ d.records, ∀ y ∈ d'.records, y.run.id = x.run.id → Evolves P x.run y.run

variable {d' d'' : World}

theorem Later.refl (d : World) : Later d d := fun x hx =>
  ⟨x, hx, rfl, rfl, List.prefix_rfl, List.prefix_rfl, fun h => ⟨h, rfl⟩⟩

theorem Later.trans (h : Later d d') (h' : Later d' d'') : Later d d'' := by
  intro x hx
  obtain ⟨y, hy, hxy⟩ := h x hx
  obtain ⟨z, hz, hyz⟩ := h' y hy
  refine ⟨z, hz, hyz.owner.trans hxy.owner, hyz.id.trans hxy.id, hxy.receipts.trans hyz.receipts,
    hxy.evidence.trans hyz.evidence, fun hfinal => ?_⟩
  obtain ⟨hfinal, hcalls⟩ := hxy.final hfinal
  obtain ⟨hfinal, hcalls'⟩ := hyz.final hfinal
  rw [hxy.id] at hcalls'
  exact ⟨hfinal, hcalls'.trans hcalls⟩

theorem Allowed.later (hd : Inv P d) (h : Allowed P d d') : Later d d' := by
  intro x hx
  obtain ⟨olds, news, hrecords, hsteps⟩ := h.records
  obtain ⟨y, hy, howner, hevolves⟩ := exists_right hsteps hx
  refine ⟨y, hrecords ▸ List.mem_append_left _ hy, howner, hevolves.id, hevolves.receipts,
    hevolves.evidence, fun hfinal => ⟨hevolves.final hfinal, ?_⟩⟩
  obtain ⟨more, hcalls, hmore⟩ := h.calls
  have hnone : (more.filter fun c => c.runId = x.run.id) = [] := by
    refine List.filter_eq_nil_iff.2 fun c hc hid => ?_
    obtain ⟨x', hx', hid', hgoing⟩ := hmore c hc
    obtain rfl : x' = x := hd.unique hx' hx (hid'.trans (of_decide_eq_true hid))
    exact hgoing hfinal
  rw [World.callsFor, World.callsFor, hcalls, List.filter_append, hnone, List.append_nil]

theorem moved_refl (hd : Inv P d) : Moved P d d := by
  intro x hx y hy hid
  obtain rfl := hd.unique hy hx hid
  exact Evolves.refl _

theorem Allowed.moved (h : Allowed P d d') : Moved P d d' := by
  intro x hx y hy hid
  obtain ⟨olds, news, hrecords, hsteps⟩ := h.records
  obtain ⟨y', hy', -, hevolves⟩ := exists_right hsteps hx
  have hy' : y' ∈ d'.records := hrecords ▸ List.mem_append_left _ hy'
  obtain rfl := h.inv.unique hy hy' (hid.trans hevolves.id.symm)
  exact hevolves

/-- **Every payment is made at most once, within the budgets.** -/
theorem payments_once (P : Server)
    {s t : System.State Unit World Effect Answer JsError Run}
    {τ σ : List (Tr (System.State Unit World Effect Answer JsError Run)
      (System.Action Unit Effect Answer JsError Run))}
    (hs : P.system.lts.Run (System.State.idle World.empty) τ s)
    (ht : P.system.lts.Run s σ t) :
    (∀ id, t.world.purchases id ≤ 1 ∧ t.world.verifications id ≤ 1) ∧
      (∀ x ∈ t.world.records, Accounts P x.run) ∧ Later s.world t.world ∧
        ∀ e ∈ σ, Moved P e.pre.world e.post.world := by
  have hinv := Sequential.run P.sound inv_empty (hs.append ht)
  refine ⟨hinv.once, hinv.accounts, ?_, fun e he => ?_⟩
  · exact Sequential.rel P.sound inv_empty hs ht Later.refl (fun _ _ _ => Later.trans)
      fun d d' hd => Allowed.later hd
  · obtain ⟨σ₁, σ₂, rfl⟩ := List.append_of_mem he
    obtain ⟨hpre, hst, -⟩ := ht.split_at
    have hholds := P.sound.run inv_empty (hs.append hpre)
    rcases Sequential.step P.sound hholds hst with hsame | hallowed
    · rw [hsame]
      exact moved_refl hholds.1
    · exact hallowed.moved

namespace Sample

/-- A server in any environment. -/
def server : Server := ⟨.plain, fun _ => True⟩

/-- A gateway that sells what the run asks for. -/
def seller : Gateway where
  providers := [⟨js "repo-economy", [], hedera, js "HBAR", 100000⟩]
  data purchase := (purchase.repos.map fun repo => ⟨repo, 0, 0, 0, [], [], []⟩,
    ⟨purchase.requestId, js "live", hedera, js "HBAR", purchase.maxAmountAtomic, js "settled",
      some (js "0.0.1")⟩)
  summary := []
  checked purchase := (⟨purchase.requestId, js "live", arc, js "USDC", purchase.maxAmountAtomic,
    js "settled", some (js "0x1")⟩, some [⟨[], true, []⟩])

/-- Advance the run. -/
def advance : Exec Run :=
  RunStore.mutate (Platform.plain.withFile Sample.env) (js "owner") (js "a")
    (RunAction.advance.run (Platform.plain.withFile Sample.env))

/-- The world after so many calls of `advance`. -/
def advanced : ℕ → World
  | 0 => ((create .file).exec seller.respond World.empty).2
  | n + 1 => (advance.exec seller.respond (advanced n)).2

theorem run_advanced (n : ℕ) :
    ∃ τ, server.system.lts.Run (System.State.idle World.empty) τ ⟨advanced n, fun _ => none⟩ := by
  induction n with
  | zero =>
    exact System.run_exec (S := server.system) (s := System.State.idle World.empty) (i := ())
      seller.respond_work rfl (.create (show server.environments Sample.env from trivial) (js "owner") input)
  | succ n ih =>
    obtain ⟨τ, hrun⟩ := ih
    obtain ⟨σ, hstep⟩ := System.run_exec (S := server.system)
      (s := ⟨advanced n, fun _ => none⟩) (i := ()) seller.respond_work rfl
      (.mutate (show server.environments Sample.env from trivial) (js "owner") (js "a") .advance)
    exact ⟨_, hrun.append hstep⟩

end Sample

/-- A run that was advanced four times has paid for its data. -/
theorem payments_once_sample :
    (∃ τ, Sample.server.system.lts.Run (System.State.idle World.empty) τ
      ⟨Sample.advanced 4, fun _ => none⟩) ∧
      ((Sample.advanced 4).records.map fun x => (x.run.stage, x.run.dataSpentAtomic)) =
        [(.verification, 100000)] ∧
        (∀ id, (Sample.advanced 4).purchases id ≤ 1 ∧ (Sample.advanced 4).verifications id ≤ 1) := by
  obtain ⟨τ, hrun⟩ := Sample.run_advanced 4
  refine ⟨⟨τ, hrun⟩, by decide +kernel, ?_⟩
  exact (payments_once Sample.server hrun (.nil _)).1

end Runs

end Obolos
