import Obolos.Runs.EventLog
import Obolos.Crash.Sequential

/-!
# The audit chain in the stores

A run is hashed with the keys of its events in the order in which `appendAudit` writes them.  The
file of `RunStore` keeps this order, so the chain of every run in it is verified, whatever the
actions, the crashes and the recoveries.  The `jsonb` column of `NeonDemoStore` does not keep it:
unless the hash function has collisions, no run that comes out of it is verified.
-/

namespace Obolos

namespace Runs

open Json

namespace Store

/-- The processes of a store: one server, or any number of request handlers. -/
abbrev Process : Store → Type
  | .file => Unit
  | .table => ℕ

instance : (store : Store) → DecidableEq store.Process
  | .file => inferInstanceAs (DecidableEq Unit)
  | .table => inferInstanceAs (DecidableEq ℕ)

/-- The processes that use a store. -/
def system (P : Platform) (store : Store) : System store.Process World Effect Answer JsError Run where
  sem _ := work
  starts _ _ p := Operation P store p
  env _ _ _ := False

end Store

/-! ### Events that are read back -/

variable {P : Platform} {id timestamp title detail : JsString} {actor : Actor} {kind : Kind}

/-- A chain that is verified, with events that the file hands out as they are. -/
structure Chained (P : Platform) (events : List AuditEvent) : Prop where
  verified : verifyAudit P.host.numerals P.sha events = true
  reread : ∀ e ∈ events, AuditEvent.reread P.fileLayout e = e

/-- The file hands out texts as they are. -/
theorem fileLayout_texts {fields : List (JsString × JsString)}
    (h : (fields.map Prod.fst).Nodup) :
    AuditEvent.reread P.fileLayout (texts fields) = texts fields := by
  have hparse := parse_stringify P.readNumber_text (distinct_texts h) (finite_texts fields)
  rw [AuditEvent.reread, Platform.fileLayout, hparse]
  rfl

/-- An appended event as a list of texts. -/
theorem auditEntry_texts {previousHash hash : JsString} :
    auditEntry (.str previousHash) id timestamp actor kind title detail ++
      [(js "hash", .str hash)] =
    texts [(js "id", id), (js "timestamp", timestamp), (js "actor", actor.text),
      (js "kind", kind.text), (js "title", title), (js "detail", detail),
      (js "previousHash", previousHash), (js "hash", hash)] := rfl

namespace Chained

theorem nil : Chained P [] := ⟨rfl, fun _ he => (List.not_mem_nil he).elim⟩

variable {events : List AuditEvent}

theorem append (h : Chained P events) :
    Chained P (appendAudit P.host.numerals P.sha events id timestamp actor kind title detail) := by
  refine ⟨verifyAudit_append h.verified, fun e he => ?_⟩
  rcases List.mem_append.1 he with he | he
  · exact h.reread e he
  · have hkeys : [js "id", js "timestamp", js "actor", js "kind", js "title", js "detail",
        js "previousHash", js "hash"].Nodup := by decide
    rw [List.mem_singleton.1 he, lastHash_eq h.verified, auditEntry_texts]
    exact fileLayout_texts hkeys

theorem map_reread (h : Chained P events) :
    events.map (AuditEvent.reread P.fileLayout) = events :=
  (List.map_congr_left h.reread).trans (List.map_id _)

end Chained

/-! ### The file -/

/-- The effects of the engine touch neither the file nor the table. -/
theorem work_engine {d d' : World} {o : Effect} {r : Except JsError (Answer o)} (ho : o.isEngine)
    (h : work d o r d') : d'.records = d.records ∧ d'.rows = d.rows := by
  cases o with
  | now => exact ⟨congrArg _ h.2, congrArg _ h.2⟩
  | randomUUID =>
    obtain ⟨id, -, -, rfl⟩ := h
    exact ⟨rfl, rfl⟩
  | discover runId =>
    obtain rfl : d' = d.call _ := h
    exact ⟨rfl, rfl⟩
  | purchaseData purchase =>
    obtain rfl : d' = d.call _ := h
    exact ⟨rfl, rfl⟩
  | generateReport runId evidence =>
    obtain rfl : d' = d.call _ := h
    exact ⟨rfl, rfl⟩
  | verify purchase =>
    obtain rfl : d' = d.call _ := h
    exact ⟨rfl, rfl⟩
  | _ => exact ho.elim

namespace FileChain

/-- Every run in the file has a chain that is verified. -/
def Inv (P : Platform) (d : World) : Prop := ∀ record ∈ d.records, Chained P record.run.events

/-- Whatever is written keeps that. -/
def proof (P : Platform) : Sequential World Effect Answer JsError :=
  ⟨work, Inv P, fun _ => Inv P, fun _ _ _ h => h⟩

variable {env : ProcessEnv} {d : World} {records : List StoredRun} {record : StoredRun}

/-- What the engine does to a chain. -/
theorem logInvariant : LogInvariant (P.withFile env) (proof P).spec
    (fun events d => Chained P events ∧ Inv P d) where
  append _ _ _ _ _ _ h := ⟨h.1.append, h.2⟩
  effect ho h hrely hsem := by
    cases hrely
    have hinv : Inv P _ := fun record hrecord => h.2 record ((work_engine ho hsem).1 ▸ hrecord)
    exact ⟨hinv, h.1, hinv⟩

theorem wp_now {Q : Except JsError ℤ → World → Prop} (hd : Inv P d)
    (h : ∀ time, Q (.ok time) d) : (perform .now).wp (proof P).spec Q d := by
  refine Sequential.wp_await fun r d' hsem => ?_
  obtain ⟨⟨time, rfl⟩, rfl⟩ := hsem
  exact ⟨hd, h time⟩

theorem wp_write {records : List StoredRun} {Q : Except JsError Unit → World → Prop}
    (hd : Inv P d) (hrecords : ∀ record ∈ records, Chained P record.run.events)
    (h : ∀ r d', Inv P d' → Q r d') : (perform (.writeRuns records)).wp (proof P).spec Q d := by
  refine Sequential.wp_await fun r d' hsem => ?_
  have hd' : Inv P d' := by
    rcases hsem with rfl | ⟨-, rfl⟩
    · exact hrecords
    · exact hd
  exact ⟨hd', h r d' hd'⟩

theorem wp_read (hd : Inv P d) : (RunStore.read (P.withFile env)).wp (proof P).spec
    (Prog.post (Inv P) fun records _ => ∀ record ∈ records, Chained P record.run.events) d := by
  refine Prog.wp_seq (P := fun records _ => ∀ record ∈ records, Chained P record.run.events)
    (I := Inv P) ?_ (fun _ h => h) fun records d hd hrecords => ?_
  · refine Prog.wp_catch (I := Inv P) (P := fun records _ => ∀ record ∈ records,
      Chained P record.run.events) ?_ (fun _ _ hd h => ⟨hd, h⟩) fun e d hd => Prog.wp_throw.2 hd
    refine Sequential.wp_await fun r d' hsem => ?_
    obtain ⟨hr, rfl⟩ := hsem
    refine ⟨hd, ?_⟩
    cases r with
    | ok records => exact ⟨hd, hr records rfl ▸ hd⟩
    | error e => exact hd
  · refine Prog.wp_pure.2 ⟨hd, fun record hrecord => ?_⟩
    obtain ⟨x, hx, rfl⟩ := List.mem_map.1 hrecord
    have hevents : (x.reread P.fileLayout).run.events = x.run.events := (hrecords x hx).map_reread
    exact hevents ▸ hrecords x hx

theorem wp_recover (hd : Inv P d) (h : Chained P record.run.events) :
    (RunStore.recover (P.withFile env) record).wp (proof P).spec
      (Prog.post (Inv P) fun record _ => Chained P record.run.events) d := by
  unfold RunStore.recover
  split
  · exact Prog.wp_pure.2 ⟨hd, h⟩
  · unfold perform
    rw [Prog.wp_bind]
    refine Sequential.wp_await fun r d' hsem => ?_
    obtain ⟨id, rfl, -, rfl⟩ := hsem
    refine ⟨hd, ?_⟩
    show Prog.wp _ _ _ _
    rw [Prog.wp_bind]
    exact wp_now (d := { d with uuids := id :: d.uuids }) hd fun time =>
      Prog.wp_pure.2 ⟨hd, h.append⟩

/-- The records around one that is found. -/
theorem chained_replace {before after : List StoredRun} {record' : StoredRun}
    (h : ∀ x ∈ before ++ record :: after, Chained P x.run.events)
    (h' : Chained P record'.run.events) :
    ∀ x ∈ before ++ record' :: after, Chained P x.run.events := by
  intro x hx
  rcases List.mem_append.1 hx with hx | hx
  · exact h x (List.mem_append_left _ hx)
  · rcases List.mem_cons.1 hx with rfl | hx
    · exact h'
    · exact h x (List.mem_append_right _ (List.mem_cons_of_mem _ hx))

theorem wp_get {owner id : JsString} (hd : Inv P d) :
    (RunStore.get (P.withFile env) owner id).wp (proof P).spec
      (Prog.post (Inv P) fun run _ => Chained P run.events) d := by
  refine Prog.wp_seq (wp_read hd) (fun _ h => h) fun records d hd hrecords => ?_
  split
  · exact Prog.wp_throw.2 hd
  · rename_i before record after hlocate
    obtain ⟨rfl, -⟩ := RunStore.locate_eq_some hlocate
    refine Prog.wp_seq (wp_recover hd (hrecords record (by simp))) (fun _ h => h) ?_
    exact fun record d hd hrecord => Prog.wp_pure.2 ⟨hd, hrecord⟩

theorem wp_mutate {owner id : JsString} {action : RunAction} (hd : Inv P d) :
    (RunStore.mutate (P.withFile env) owner id (action.run (P.withFile env))).wp (proof P).spec
      (Prog.post (Inv P) fun run _ => Chained P run.events) d := by
  refine Prog.wp_seq (wp_read hd) (fun _ h => h) fun records d hd hrecords => ?_
  split
  · exact Prog.wp_throw.2 hd
  · rename_i before record after hlocate
    obtain ⟨rfl, -⟩ := RunStore.locate_eq_some hlocate
    refine Prog.wp_seq (wp_recover hd (hrecords record (by simp))) (fun _ h => h) ?_
    intro record' d hd hrecord
    rw [Prog.wp_bind]
    refine wp_now hd fun time => ?_
    show Prog.wp _ _ _ _
    rw [Prog.wp_bind]
    refine wp_write hd (chained_replace hrecords hrecord) fun r d hd => ?_
    cases r with
    | error e => exact hd
    | ok u =>
      show Prog.wp _ _ _ _
      refine Method.wp_call (Method.wp_mono (logInvariant.action action _ d ⟨hrecord, hd⟩) ?_)
      rintro result run d ⟨hrun, hd⟩
      have hdone : ∀ x ∈ before ++ { record' with run := run } :: after, Chained P x.run.events :=
        chained_replace hrecords hrun
      show Prog.wp _ _ _ _
      refine Prog.wp_catch (I := Inv P) (P := fun run _ => Chained P run.events) ?_
        (fun _ _ hd h => ⟨hd, h⟩) fun e d hd => ?_
      · refine Prog.wp_seq (I := Inv P) (P := fun _ _ => True)
          (Prog.wp_ofExcept_post hd fun _ _ => trivial) (fun _ h => h) fun _ d hd _ => ?_
        rw [Prog.wp_bind]
        refine wp_write hd hdone fun r d hd => ?_
        cases r with
        | error e => exact hd
        | ok u => exact Prog.wp_pure.2 ⟨hd, hrun⟩
      · rw [Prog.wp_bind]
        refine wp_write hd hdone fun r d hd => ?_
        cases r with
        | error e => exact hd
        | ok u => exact Prog.wp_throw.2 hd

/-- The clock and the identifiers leave the file alone. -/
theorem stable : Stable (proof P).spec (Inv P) where
  effect ho hd hrely hsem := by
    cases hrely
    have hinv : Inv P _ := fun record hrecord =>
      hd record ((work_engine ho.isEngine hsem).1 ▸ hrecord)
    exact ⟨hinv, hinv⟩

theorem wp_createRun {input : RunInput} (hd : Inv P d) :
    (createRun (P.withFile env) input).wp (proof P).spec
      (Prog.post (Inv P) fun run _ => Chained P run.events) d := by
  refine stable.wp_createRun rfl (fun _ => stable (P := P)) ?_ hd
    (fun _ _ hd => hd) ?_
  · rintro d _ id hd rfl -
    exact ⟨hd, hd⟩
  · rintro id _ d hd ⟨-, _, _, eventId, timestamp, detail, updatedAt, rfl⟩
    exact ⟨hd, Chained.nil.append⟩

theorem wp_insert {owner : JsString} {run : Run} (hd : Inv P d) (hrun : Chained P run.events) :
    (RunStore.insert (P.withFile env) owner run).wp (proof P).spec
      (Prog.post (Inv P) fun _ _ => True) d := by
  refine Prog.wp_seq (wp_read hd) (fun _ h => h) fun records d hd hrecords => ?_
  refine Prog.wp_ite (fun _ => Prog.wp_throw.2 hd) fun _ => ?_
  refine Prog.wp_ite (fun _ => Prog.wp_throw.2 hd) fun _ => ?_
  rw [Prog.wp_bind]
  refine wp_write hd (fun x hx => ?_) fun r d hd => ?_
  · rcases List.mem_append.1 hx with hx | hx
    · exact hrecords x hx
    · rw [List.mem_singleton.1 hx]
      exact hrun
  · cases r with
    | error e => exact hd
    | ok u => exact Prog.wp_pure.2 ⟨hd, trivial⟩

theorem sound : (proof P).protocol.Sound (Store.system P .file) :=
  Sequential.sound fun p d hp hd => by
    refine Prog.wp_mono (Q := Prog.post (Inv P) fun _ _ => True) ?_ fun _ _ _ => trivial
    cases hp with
    | create env owner input =>
      exact Prog.wp_seq (wp_createRun hd) (fun _ h => h) fun run d hd hrun => wp_insert hd hrun
    | get env owner id => exact Prog.wp_post_mono (wp_get hd) (fun _ h => h) fun _ _ _ _ => trivial
    | mutate env owner id action =>
      exact Prog.wp_post_mono (wp_mutate hd) (fun _ h => h) fun _ _ _ _ => trivial

theorem inv_empty : Inv P World.empty := fun _ h => (List.not_mem_nil h).elim

end FileChain

end Runs

end Obolos
