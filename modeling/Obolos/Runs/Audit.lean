import Obolos.Economy.CanonicalJson
import Obolos.Js.Jsonb
import Mathlib.Data.List.Induction

/-!
# The audit chain of a run

The functions `eventHash`, `appendAudit` and `verifyAudit` of `policy.ts`.  An event is an object
with texts as fields, and its hash is that of its `JSON.stringify` text without the field `hash`:
the order of the keys is part of what is hashed, so an event is kept here with that order.

A chain that is verified stays so when an event is appended (`verifyAudit_append`).  Without
collisions of the hash function a verified chain is determined by its last hash
(`verifyAudit_unique`).
-/

namespace Obolos

namespace Runs

open Json

/-- `AuditEvent['actor']` -/
inductive Actor
  | supervisor | planner | broker | worker | verifier
  deriving DecidableEq

/-- `AuditEvent['kind']` -/
inductive Kind
  | info | success | warning | blocked
  deriving DecidableEq

def Actor.text : Actor → JsString
  | .supervisor => js "supervisor"
  | .planner => js "planner"
  | .broker => js "broker"
  | .worker => js "worker"
  | .verifier => js "verifier"

def Kind.text : Kind → JsString
  | .info => js "info"
  | .success => js "success"
  | .warning => js "warning"
  | .blocked => js "blocked"

/-- `AuditEvent`: its fields in the order of the keys. -/
abbrev AuditEvent := List (JsString × Json)

/-- `createHash('sha256').update(bytes).digest('hex')`; `'genesis'` is no hexadecimal text. -/
structure Sha256 where
  digest : List ℕ → JsString
  digest_ne : ∀ bytes, digest bytes ≠ js "genesis"

variable (N : Numerals) (sha : Sha256)

/-- `eventHash(event)` -/
def eventHash (event : AuditEvent) : JsString :=
  sha.digest (JsString.utf8 (stringify N (.obj event)))

/-- `event` in `const {hash, ...event}`. -/
def AuditEvent.body (event : AuditEvent) : AuditEvent := event.filter fun f => f.1 ≠ js "hash"

/-- `events.at(-1)?.hash ?? 'genesis'` -/
def lastHash (events : List AuditEvent) : Json :=
  match events.getLast?.bind (get (js "hash")) with
  | none => .str (js "genesis")
  | some .null => .str (js "genesis")
  | some hash => hash

/-- The fields of `entry` in `appendAudit`. -/
def auditEntry (previousHash : Json) (id timestamp : JsString) (actor : Actor) (kind : Kind)
    (title detail : JsString) : AuditEvent :=
  [(js "id", .str id), (js "timestamp", .str timestamp), (js "actor", .str actor.text),
    (js "kind", .str kind.text), (js "title", .str title), (js "detail", .str detail),
    (js "previousHash", previousHash)]

/-- `appendAudit(events, actor, kind, title, detail)`, with the identifier and the time of the
event. -/
def appendAudit (events : List AuditEvent) (id timestamp : JsString) (actor : Actor) (kind : Kind)
    (title detail : JsString) : List AuditEvent :=
  let entry := auditEntry (lastHash events) id timestamp actor kind title detail
  events ++ [entry ++ [(js "hash", .str (eventHash N sha entry))]]

/-- `value === text` for a value that may be `undefined`. -/
def isText (text : JsString) : Option Json → Bool
  | some (.str s) => s = text
  | _ => false

theorem isText_iff {text : JsString} {x : Option Json} :
    isText text x = true ↔ x = some (.str text) := by
  unfold isText
  split
  · simp
  · rename_i h
    constructor
    · intro hf
      cases hf
    · intro hx
      exact absurd hx (h text)

/-- The loop of `verifyAudit`, from the hash of the event before. -/
def verifyFrom (previous : JsString) : List AuditEvent → Bool
  | [] => true
  | event :: events =>
    isText previous (get (js "previousHash") event.body) &&
      isText (eventHash N sha event.body) (get (js "hash") event) &&
        verifyFrom (eventHash N sha event.body) events

/-- `verifyAudit(events)` -/
def verifyAudit (events : List AuditEvent) : Bool := verifyFrom N sha (js "genesis") events

/-! ### Appending -/

variable {N sha} {previous : JsString} {event : AuditEvent} {events events' : List AuditEvent}

/-- The hash at the end of a chain. -/
def chainEnd (N : Numerals) (sha : Sha256) (previous : JsString) : List AuditEvent → JsString
  | [] => previous
  | event :: events => chainEnd N sha (eventHash N sha event.body) events

theorem chainEnd_append :
    chainEnd N sha previous (events ++ [event]) = eventHash N sha event.body := by
  induction events generalizing previous with
  | nil => rfl
  | cons e events ih => exact ih

theorem verifyFrom_append :
    verifyFrom N sha previous (events ++ [event]) = true ↔
      verifyFrom N sha previous events = true ∧
        get (js "previousHash") event.body = some (.str (chainEnd N sha previous events)) ∧
          get (js "hash") event = some (.str (eventHash N sha event.body)) := by
  induction events generalizing previous with
  | nil =>
    simp only [List.nil_append, verifyFrom, chainEnd, Bool.and_eq_true, isText_iff, and_true,
      true_and]
  | cons e events ih =>
    simp only [List.cons_append, verifyFrom, Bool.and_eq_true, ih, chainEnd, and_assoc]

/-- The last hash of a verified chain. -/
theorem lastHash_eq (h : verifyAudit N sha events = true) :
    lastHash events = .str (chainEnd N sha (js "genesis") events) := by
  rcases List.eq_nil_or_concat events with rfl | ⟨events, event, rfl⟩
  · rfl
  · rw [List.concat_eq_append] at h ⊢
    rw [chainEnd_append, lastHash, List.getLast?_concat, Option.bind_some,
      (verifyFrom_append.1 h).2.2]

variable {id timestamp title detail : JsString} {actor : Actor} {kind : Kind} {x : Json}

theorem body_auditEntry :
    AuditEvent.body (auditEntry x id timestamp actor kind title detail ++
      [(js "hash", .str previous)]) = auditEntry x id timestamp actor kind title detail := by
  have hkeys : ∀ key ∈ [js "id", js "timestamp", js "actor", js "kind", js "title", js "detail",
      js "previousHash"], key ≠ js "hash" := by decide
  simp only [AuditEvent.body, List.filter_append, List.filter_cons_of_neg, List.filter_nil,
    List.append_nil, ne_eq, not_true_eq_false, decide_false, Bool.false_eq_true, not_false_eq_true]
  refine List.filter_eq_self.2 fun field hfield => decide_eq_true (hkeys field.1 ?_)
  exact List.mem_map_of_mem hfield

theorem get_hash_auditEntry :
    get (js "hash") (auditEntry x id timestamp actor kind title detail ++
      [(js "hash", .str previous)]) = some (.str previous) := rfl

theorem get_previousHash_auditEntry :
    get (js "previousHash") (auditEntry x id timestamp actor kind title detail) = some x := rfl

/-- **A verified chain stays so.** -/
theorem verifyAudit_append (h : verifyAudit N sha events = true) :
    verifyAudit N sha (appendAudit N sha events id timestamp actor kind title detail) = true := by
  refine verifyFrom_append.2 ⟨h, ?_, ?_⟩
  · rw [body_auditEntry, get_previousHash_auditEntry, lastHash_eq h]
  · rw [body_auditEntry, get_hash_auditEntry]

/-! ### Uniqueness -/

/-- The fields of an event are texts. -/
def AuditEvent.Texts (event : AuditEvent) : Prop := ∀ f ∈ event, ∃ s, f.2 = .str s

theorem AuditEvent.Texts.finite (h : event.Texts) : (Json.obj event).finite = true := by
  refine finiteFields_of_forall fun field hfield => ?_
  obtain ⟨s, hs⟩ := h field hfield
  rw [hs]
  rfl

theorem AuditEvent.Texts.body (h : event.Texts) : event.body.Texts := fun f hf =>
  h f (List.mem_of_mem_filter hf)

/-- Without collisions the hash of an event determines the event. -/
theorem eventHash_inj (hsha : Function.Injective sha.digest) {event event' : AuditEvent}
    (h : event.Texts) (h' : event'.Texts) (hhash : eventHash N sha event = eventHash N sha event') :
    event = event' := by
  have htext := JsString.utf8_inj (wellFormed_stringify _) (wellFormed_stringify _) (hsha hhash)
  have hends : Ends [] := fun c hc => by cases hc
  have hobj := stringify_inj (N := N) (s := []) (t := []) (.obj event) h.finite h'.finite hends
    hends (by rw [List.append_nil, List.append_nil, htext])
  exact Json.obj.inj hobj.1

/-- What `body` keeps. -/
theorem get_body {key : JsString} (h : key ≠ js "hash") : get key event.body = get key event := by
  induction event with
  | nil => rfl
  | cons field event ih =>
    obtain ⟨k, x⟩ := field
    unfold AuditEvent.body at ih ⊢
    by_cases hk : k = js "hash"
    · rw [List.filter_cons_of_neg (by simpa using hk), ih, Json.get, if_neg (hk ▸ h.symm)]
    · rw [List.filter_cons_of_pos (by simpa using hk), Json.get, Json.get, ih]

/-- Two events with the same hash and otherwise the same fields are the same object. -/
theorem same_of_body {event event' : AuditEvent} (h : event.Texts) (hbody : event.body = event'.body)
    (hhash : get (js "hash") event = get (js "hash") event') :
    Same (.obj event) (.obj event') := by
  refine .obj fun key => ?_
  have hget : get key event = get key event' := by
    by_cases hk : key = js "hash"
    · rw [hk, hhash]
    · rw [← get_body hk, hbody, get_body hk]
  rw [← hget]
  cases hx : get key event with
  | none => exact .none
  | some x =>
    obtain ⟨s, hs⟩ := h _ (mem_of_get hx)
    obtain rfl : x = .str s := hs
    exact .some (.str s)

/-- The end of a chain that is not empty is no start of a chain. -/
theorem chainEnd_ne : chainEnd N sha (js "genesis") (events ++ [event]) ≠ js "genesis" := by
  rw [chainEnd_append]
  exact sha.digest_ne _

/-- **Uniqueness.**  Two verified chains that end in the same hash are the same. -/
theorem verifyAudit_unique (hsha : Function.Injective sha.digest)
    (htexts : ∀ e ∈ events, e.Texts) (htexts' : ∀ e ∈ events', e.Texts)
    (h : verifyAudit N sha events = true) (h' : verifyAudit N sha events' = true)
    (hlast : lastHash events = lastHash events') :
    List.Forall₂ (fun e e' => Same (.obj e) (.obj e')) events events' := by
  rw [lastHash_eq h, lastHash_eq h', Json.str.injEq] at hlast
  induction events using List.reverseRecOn generalizing events' with
  | nil =>
    rcases List.eq_nil_or_concat events' with rfl | ⟨events', event', rfl⟩
    · exact .nil
    · rw [List.concat_eq_append] at hlast
      exact absurd hlast.symm chainEnd_ne
  | append_singleton events event ih =>
    rcases List.eq_nil_or_concat events' with rfl | ⟨events', event', rfl⟩
    · exact absurd hlast chainEnd_ne
    · rw [List.concat_eq_append] at h' htexts' hlast ⊢
      obtain ⟨hv, hprev, hhash⟩ := verifyFrom_append.1 h
      obtain ⟨hv', hprev', hhash'⟩ := verifyFrom_append.1 h'
      rw [chainEnd_append, chainEnd_append] at hlast
      have hevent := htexts event (by simp)
      have hbody : event.body = event'.body :=
        eventHash_inj hsha hevent.body (htexts' event' (by simp)).body hlast
      rw [hbody, hprev', Option.some.injEq, Json.str.injEq] at hprev
      refine List.rel_append (ih (fun e he => htexts e (by simp [he]))
        (fun e he => htexts' e (by simp [he])) hv hv' hprev.symm) (.cons ?_ .nil)
      exact same_of_body hevent hbody (by rw [hhash, hhash', hlast])

end Runs

end Obolos
