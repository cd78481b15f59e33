import Obolos.Economy.Indexer
import Mathlib.Data.List.Perm.Basic

/-!
# What the index keeps

A fixed chain has the logs of its blocks, and what the client says of final blocks never changes.
`rowsIn` are the rows of the decodable logs of the three contracts in a range of blocks; the index
holds those from the first block of the deployment up to its cursor (`Holds`).
-/

namespace Obolos

namespace Indexer

open Transactions (Discipline)

/-- A log of the chain. -/
structure MinedLog where
  address : JsString
  transactionHash : JsString
  logIndex : ℕ
  data : JsString
  topics : List JsString

/-- The values of the primary key of `economy_chain_events` -/
def MinedLog.key (m : MinedLog) : JsString × ℕ := (m.transactionHash, m.logIndex)

/-- A chain, with the logs of an address (in lower case) in a block.  No two logs of the chain have
the same transaction and index. -/
structure Chain where
  hash : ℕ → JsString
  timestamp : ℕ → ℕ
  logs : JsString → ℕ → List MinedLog
  address : ∀ a n, ∀ m ∈ logs a n, m.address.toLowerCase = a
  nodup : ∀ a n, ((logs a n).map MinedLog.key).Nodup
  unique : ∀ a n a' n', ∀ m ∈ logs a n, ∀ m' ∈ logs a' n', m.key = m'.key → a = a' ∧ n = n'

/-- The heads that the client reports: those from `known` on, and at most the `final` one. -/
structure Heads where
  known : ℕ
  final : ℕ

/-- The heads only move forward. -/
def Heads.later (w w' : Heads) : Prop := w.known ≤ w'.known ∧ w.final ≤ w'.final

theorem Heads.later.refl (w : Heads) : w.later w := ⟨le_rfl, le_rfl⟩

theorem Heads.later.trans {w w' w'' : Heads} (h : w.later w') (h' : w'.later w'') : w.later w'' :=
  ⟨h.1.trans h'.1, h.2.trans h'.2⟩

variable (C : Chain) (D : Deployment)

/-- A block of the chain. -/
def Chain.block (n : ℕ) : Block := ⟨some n, some (C.hash n), C.timestamp n⟩

/-- A log of block `n`. -/
def Chain.log (n : ℕ) (m : MinedLog) : Log where
  address := m.address
  blockNumber := some n
  blockHash := some (C.hash n)
  transactionHash := some m.transactionHash
  logIndex := some m.logIndex
  removed := false
  data := m.data
  topics := m.topics

/-- The blocks of a range. -/
def blocksIn (first last : ℕ) : List ℕ := List.range' first (last + 1 - first)

/-- The logs of an address in a range of blocks, with their blocks. -/
def Chain.entries (address : JsString) (first last : ℕ) : List (ℕ × MinedLog) :=
  (blocksIn first last).flatMap fun n => (C.logs address n).map fun m => (n, m)

/-- The logs of an address in a range, as the client returns them. -/
def Chain.logsIn (address : JsString) (first last : ℕ) : List Log :=
  (C.entries address first last).map fun e => C.log e.1 e.2

/-- What the client answers.  The blocks and the logs up to the final block are those of the
chain. -/
def Chain.Answers (w : Heads) : (o : Call) → CallAnswer o → Prop
  | .getChainId, _ => True
  | .getBlock n, block => n ≤ w.final → block = C.block n
  | .finalizedBlock, block => ∃ n, w.known ≤ n ∧ n ≤ w.final ∧ block = C.block n
  | .getLogs address first last, logs =>
      last ≤ w.final → logs = C.logsIn address.toLowerCase first last
  | .other _, _ => True

/-- A call of the client: an answer, or an exception. -/
def Chain.answers (w : Heads) (o : Call) (r : Except ApiError (CallAnswer o)) (w' : Heads) : Prop :=
  w' = w ∧ ((∃ a, r = .ok a ∧ C.Answers w o a) ∨ ∃ e, r = .error (.thrown e))

/-- A lost connection, or another error that has nothing to do with the statement. -/
def fault (e : ApiError) : Prop := e.lost

/-! ### The rows -/

/-- The row of a log of a contract, if it can be decoded. -/
def Chain.row (c : Contract) (e : ℕ × MinedLog) : Option EventRow :=
  (D.decode c e.2.data e.2.topics).map fun event =>
    ⟨(D.address c).toLowerCase, e.2.transactionHash, e.2.logIndex, e.1, C.hash e.1,
      C.timestamp e.1, event.1, event.2⟩

/-- The rows of the decodable logs of a contract in a range of blocks. -/
def Chain.rowsOf (c : Contract) (first last : ℕ) : List EventRow :=
  (C.entries (D.address c).toLowerCase first last).filterMap (C.row D c)

/-- **The rows of the decodable logs of the three contracts in a range of blocks.** -/
def Chain.rowsIn (first last : ℕ) : List EventRow :=
  Contract.all.flatMap fun c => C.rowsOf D c first last

variable {C D} {c : Contract} {e : ℕ × MinedLog} {r : EventRow} {first last next : ℕ}

theorem row_key (h : r ∈ C.row D c e) : r.key = e.2.key := by
  obtain ⟨event, -, rfl⟩ := Option.map_eq_some_iff.1 h
  rfl

theorem mem_blocksIn {n : ℕ} : n ∈ blocksIn first last ↔ first ≤ n ∧ n ≤ last := by
  rw [blocksIn, List.mem_range'_1]
  omega

theorem blocksIn_append (h : first ≤ last + 1) (h' : last ≤ next) :
    blocksIn first next = blocksIn first last ++ blocksIn (last + 1) next := by
  have hlength : next + 1 - first = (last + 1 - first) + (next + 1 - (last + 1)) := by omega
  have hstart : first + (last + 1 - first) = last + 1 := by omega
  unfold blocksIn
  rw [hlength, ← List.range'_append_1, hstart]

theorem mem_entries {address : JsString} {m : MinedLog} {n : ℕ} :
    (n, m) ∈ C.entries address first last ↔
      (first ≤ n ∧ n ≤ last) ∧ m ∈ C.logs address n := by
  rw [Chain.entries, List.mem_flatMap]
  constructor
  · rintro ⟨n', hn', hmem⟩
    obtain ⟨m', hm', heq⟩ := List.mem_map.1 hmem
    cases heq
    exact ⟨mem_blocksIn.1 hn', hm'⟩
  · rintro ⟨hn, hm⟩
    exact ⟨n, mem_blocksIn.2 hn, List.mem_map.2 ⟨m, hm, rfl⟩⟩

theorem entries_append (address : JsString) (h : first ≤ last + 1) (h' : last ≤ next) :
    C.entries address first next =
      C.entries address first last ++ C.entries address (last + 1) next := by
  rw [Chain.entries, blocksIn_append h h', List.flatMap_append]
  rfl

/-- Two ranges that meet. -/
theorem rowsIn_append (h : first ≤ last + 1) (h' : last ≤ next) :
    (C.rowsIn D first next).Perm (C.rowsIn D first last ++ C.rowsIn D (last + 1) next) := by
  have hsplit : C.rowsIn D first next =
      Contract.all.flatMap fun c => C.rowsOf D c first last ++ C.rowsOf D c (last + 1) next := by
    refine List.flatMap_congr fun c _ => ?_
    rw [Chain.rowsOf, entries_append _ h h', List.filterMap_append]
    rfl
  rw [hsplit]
  exact (List.flatMap_append_perm _ _ _).symm

/-- An empty range. -/
theorem rowsIn_empty (first : ℕ) : C.rowsIn D (first + 1) first = [] := by
  have hnil : ∀ c, C.rowsOf D c (first + 1) first = [] := by
    intro c
    rw [Chain.rowsOf, Chain.entries, blocksIn, Nat.sub_self]
    rfl
  rw [Chain.rowsIn, List.flatMap_eq_nil_iff]
  exact fun c _ => hnil c

/-! ### The keys -/

theorem mem_rowsOf (h : r ∈ C.rowsOf D c first last) :
    ∃ e : ℕ × MinedLog, e.2 ∈ C.logs (D.address c).toLowerCase e.1 ∧ r.key = e.2.key := by
  obtain ⟨e, he, hrow⟩ := List.mem_filterMap.1 h
  exact ⟨e, (mem_entries.1 he).2, row_key hrow⟩

theorem entries_keys (address : JsString) (first last : ℕ) :
    ((C.entries address first last).map fun e => e.2.key).Nodup := by
  have hmap : (C.entries address first last).map (fun e => e.2.key) =
      (blocksIn first last).flatMap fun n => (C.logs address n).map MinedLog.key := by
    rw [Chain.entries, List.map_flatMap]
    refine List.flatMap_congr fun n _ => ?_
    rw [List.map_map]
    rfl
  rw [hmap, List.nodup_flatMap]
  refine ⟨fun n _ => C.nodup address n, ?_⟩
  refine (List.nodup_range' (s := first) (n := last + 1 - first)).imp fun {n n'} hne => ?_
  intro key hkey hkey'
  obtain ⟨m, hm, rfl⟩ := List.mem_map.1 hkey
  obtain ⟨m', hm', heq⟩ := List.mem_map.1 hkey'
  exact hne (C.unique address n address n' m hm m' hm' heq.symm).2

theorem rowsOf_keys (c : Contract) (first last : ℕ) :
    ((C.rowsOf D c first last).map EventRow.key).Nodup := by
  have hsub : ∀ es : List (ℕ × MinedLog),
      ((es.filterMap (C.row D c)).map EventRow.key).Sublist (es.map fun e => e.2.key) := by
    intro es
    induction es with
    | nil => exact List.Sublist.refl _
    | cons e es ih =>
      cases hrow : C.row D c e with
      | none =>
        rw [List.filterMap_cons_none hrow]
        exact ih.cons _
      | some r =>
        rw [List.filterMap_cons_some hrow, List.map_cons, List.map_cons, row_key hrow]
        exact ih.cons_cons _
  exact (entries_keys _ first last).sublist (hsub _)

theorem rowsIn_keys (first last : ℕ) : ((C.rowsIn D first last).map EventRow.key).Nodup := by
  rw [Chain.rowsIn, List.map_flatMap, List.nodup_flatMap]
  refine ⟨fun c _ => rowsOf_keys c first last, ?_⟩
  have hall : Contract.all.Nodup := by decide
  refine hall.imp fun {c c'} hne => ?_
  intro key hkey hkey'
  obtain ⟨r, hr, rfl⟩ := List.mem_map.1 hkey
  obtain ⟨r', hr', heq⟩ := List.mem_map.1 hkey'
  obtain ⟨e, he, hre⟩ := mem_rowsOf hr
  obtain ⟨e', he', hre'⟩ := mem_rowsOf hr'
  have hkeys : e.2.key = e'.2.key := by rw [← hre, ← hre', heq]
  exact hne (D.address_inj c c' (C.unique _ _ _ _ _ he _ he' hkeys).1)

/-! ### The tables -/

/-- **What the tables keep**: the events are those of the decodable logs up to the cursor, which is a
final block. -/
structure Holds (C : Chain) (D : Deployment) (t : Tables) (w : Heads) : Prop where
  start : t.state = none → t.events = []
  cursor : ∀ s, t.state = some s → D.fromBlock ≤ s.blockNumber ∧ s.blockNumber ≤ w.final ∧
    s.blockHash = C.hash s.blockNumber
  events : ∀ s, t.state = some s → t.events.Perm (C.rowsIn D D.fromBlock s.blockNumber)

/-- Rows are appended, and the cursor does not move backwards. -/
structure Later (D : Deployment) (t t' : Tables) : Prop where
  events : t.events <+: t'.events
  observations : t.observations <+: t'.observations
  cursor : nextBlock D t.state ≤ nextBlock D t'.state
  state : t'.state = none → t.state = none

/-- The lock of the indexer protects the tables. -/
def Same : Lock → Tables → Tables → Prop
  | .indexer, t, t' => t' = t
  | _, _, _ => True

theorem Same.refl (k : Lock) (t : Tables) : Same k t t := by
  cases k with
  | indexer => exact rfl
  | state => exact trivial
  | event key => exact trivial
  | observation observationHash => exact trivial

theorem Same.trans {k : Lock} {t t' t'' : Tables} (h : Same k t t') (h' : Same k t' t'') :
    Same k t t'' := by
  cases k with
  | indexer => exact Eq.trans h' h
  | state => exact trivial
  | event key => exact trivial
  | observation observationHash => exact trivial

theorem Later.refl (t : Tables) : Later D t t :=
  ⟨List.prefix_rfl, List.prefix_rfl, le_rfl, id⟩

theorem Later.trans {t t' t'' : Tables} (h : Later D t t') (h' : Later D t' t'') : Later D t t'' :=
  ⟨h.events.trans h'.events, h.observations.trans h'.observations, h.cursor.trans h'.cursor,
    fun hnone => h.state (h'.state hnone)⟩

theorem Holds.later {t : Tables} {w w' : Heads} (h : Holds C D t w) (hw : w.later w') :
    Holds C D t w' where
  start := h.start
  cursor s hs := by
    obtain ⟨hfirst, hfinal, hhash⟩ := h.cursor s hs
    exact ⟨hfirst, hfinal.trans hw.2, hhash⟩
  events := h.events

/-- What the transactions of the index obey. -/
def discipline (C : Chain) (D : Deployment) : Discipline Lock Tables Heads where
  inv := Holds C D
  later := Later D
  later_refl := Later.refl
  later_trans _ _ _ := Later.trans
  same := Same
  same_refl := Same.refl
  same_trans _ _ _ _ := Same.trans
  outside := Heads.later
  outside_refl := Heads.later.refl
  outside_trans _ _ _ := Heads.later.trans
  inv_outside _ _ _ := Holds.later

/-! ### A run -/

/-- The snapshot and the cursor of a run: what it makes of the tables. -/
structure Advanced (C : Chain) (D : Deployment) (t : Tables) (number : ℕ) (t' : Tables) : Prop where
  events : t'.events = t.events ++ C.rowsIn D (nextBlock D t.state) number
  observations : t.observations <+: t'.observations
  state : ∃ s, t'.state = some s ∧ s.blockNumber = number ∧ s.blockHash = C.hash number

theorem fromBlock_le {t : Tables} {w : Heads} (h : Holds C D t w) :
    D.fromBlock ≤ nextBlock D t.state := by
  cases hs : t.state with
  | none => exact le_rfl
  | some s => exact (h.cursor s hs).1.trans (Nat.le_succ _)

/-- The events with those of the next blocks. -/
theorem events_perm {t : Tables} {w : Heads} {number : ℕ} (h : Holds C D t w)
    (hnumber : nextBlock D t.state ≤ number + 1) :
    (t.events ++ C.rowsIn D (nextBlock D t.state) number).Perm
      (C.rowsIn D D.fromBlock number) := by
  cases hs : t.state with
  | none =>
    rw [h.start hs]
    exact List.Perm.refl _
  | some s =>
    rw [hs] at hnumber
    obtain ⟨hfirst, -, -⟩ := h.cursor s hs
    have hle : s.blockNumber ≤ number := Nat.le_of_succ_le_succ hnumber
    refine ((h.events s hs).append_right _).trans ?_
    exact (rowsIn_append (hfirst.trans (Nat.le_succ _)) hle).symm

/-- The keys of the events with those of the next blocks. -/
theorem events_keys {t : Tables} {w : Heads} {number : ℕ} (h : Holds C D t w)
    (hnumber : nextBlock D t.state ≤ number + 1) :
    ((t.events ++ C.rowsIn D (nextBlock D t.state) number).map EventRow.key).Nodup :=
  (((events_perm h hnumber).map EventRow.key).nodup_iff).2 (rowsIn_keys _ _)

/-- **A run keeps the tables.** -/
theorem Advanced.kept {t t' : Tables} {w : Heads} {number : ℕ} (h : Holds C D t w)
    (hadvanced : Advanced C D t number t') (hfirst : D.fromBlock ≤ number)
    (hnumber : nextBlock D t.state ≤ number + 1) (hfinal : number ≤ w.final) :
    Holds C D t' w ∧ Later D t t' := by
  obtain ⟨s, hs, rfl, hhash⟩ := hadvanced.state
  refine ⟨⟨fun hnone => ?_, fun s' hs' => ?_, fun s' hs' => ?_⟩,
    ⟨hadvanced.events ▸ List.prefix_append _ _, hadvanced.observations, ?_, fun hnone => ?_⟩⟩
  · rw [hs] at hnone
    cases hnone
  · obtain rfl := Option.some.inj (hs.symm.trans hs')
    exact ⟨hfirst, hfinal, hhash⟩
  · obtain rfl := Option.some.inj (hs.symm.trans hs')
    rw [hadvanced.events]
    exact events_perm h hnumber
  · rw [hs]
    exact hnumber
  · rw [hs] at hnone
    cases hnone

end Indexer

end Obolos
