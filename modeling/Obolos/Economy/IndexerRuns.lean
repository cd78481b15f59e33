import Obolos.Crash.Holding
import Obolos.Economy.IndexerTables

/-!
# One run of the index

A run that has the lock of the indexer knows the tables: nobody else changes them until it ends
(`Running`).  So it is followed statement by statement, from the tables where it took the lock to
those that it commits.
-/

namespace Obolos

namespace Indexer

open Transactions (World Committed Out Holding spec)

/-- The worlds of the processes `ι`. -/
abbrev Worlds (ι : Type) := World ι Lock Tables Heads

variable {ι : Type} [DecidableEq ι] {α : Type} {C : Chain} {D : Deployment} {lost : Prop}

/-- What process `i` is verified against. -/
abbrev obligations (C : Chain) (D : Deployment) (lost : Prop) (i : ι) :=
  spec (discipline C D) schema fault lost C.answers i

variable {i : ι} {n : List (Committed ι Tables)} {d : Worlds ι} {t₀ t₁ : Tables} {w₀ : Heads}

/-- What a run knows that has the lock of the indexer: the tables are `t₀`, it has made `t₁` of them,
and the heads are `w₀` or later. -/
abbrev Running (C : Chain) (D : Deployment) (i : ι) (n : List (Committed ι Tables)) :=
  Holding (discipline C D) .indexer i n

theorem protects : (discipline C D).Protects .indexer := fun _ _ h => h

/-- A statement. -/
theorem wp_query {q : Query} {a : Rows q} {write : Tables → Tables}
    {Φ : Except ApiError (Rows q) → Worlds ι → Prop} (h : Running C D i n t₀ w₀ t₁ d)
    (hrun : schema.run q t₁ = .ok (a, write))
    (hok : ∀ d', Running C D i n t₀ w₀ (write t₁) d' → Φ (.ok a) d')
    (herror : ∀ e d', Out (discipline C D) i n d' → Φ (.error e) d') :
    (query q).wp (obligations C D lost i) Φ d :=
  h.statement protects hrun hok fun e d' _ => herror e d'

/-- A call of the client. -/
theorem wp_client {o : Call} {Φ : Except ApiError (CallAnswer o) → Worlds ι → Prop}
    (h : Running C D i n t₀ w₀ t₁ d)
    (hok : ∀ a w d', w₀.later w → C.Answers w o a → Running C D i n t₀ w t₁ d' → Φ (.ok a) d')
    (herror : ∀ e d', Out (discipline C D) i n d' → Φ (.error e) d') :
    (call o).wp (obligations C D lost i) Φ d := by
  refine h.call protects (fun w r w' hout => ?_) (fun a d' hw hanswer h => ?_)
    fun e _ _ d' _ => herror e d'
  · rw [hout.1]
    exact Heads.later.refl w
  · obtain ⟨w, heq, ⟨a', ha, hanswers⟩ | ⟨e, he⟩⟩ := hanswer
    · cases ha
      rw [← heq] at hanswers
      exact hok a d'.outside d' hw hanswers h
    · cases he

/-- `COMMIT` -/
theorem wp_finish {Φ : Except ApiError Unit → Worlds ι → Prop}
    (h : Running C D i n t₀ w₀ t₁ d) (hkept : ∀ w, w₀.later w → Holds C D t₀ w → Holds C D t₁ w)
    (hlater : Later D t₀ t₁)
    (hok : ∀ d', Out (discipline C D) i (n ++ [⟨i, t₀, t₁, true⟩]) d' → Φ (.ok ()) d')
    (hlost : lost → ∀ e d', Out (discipline C D) i (n ++ [⟨i, t₀, t₁, false⟩]) d' →
      Φ (.error e) d')
    (herror : ∀ e d', Out (discipline C D) i n d' → Φ (.error e) d') :
    commit.wp (obligations C D lost i) Φ d := by
  refine h.commit protects hkept hlater (fun k hk => ?_) hok (fun hl e d' _ => hlost hl e d')
    fun e d' _ => herror e d'
  cases k with
  | indexer => exact absurd rfl hk
  | state => exact trivial
  | event key => exact trivial
  | observation observationHash => exact trivial

/-- An error before `COMMIT`. -/
theorem wp_raise {message : String} {Φ : Except ApiError α → Worlds ι → Prop}
    (herror : ∀ e d', Out (discipline C D) i n d' → Φ (.error e) d')
    (h : Out (discipline C D) i n d) : (raise message : Exec α).wp (obligations C D lost i) Φ d :=
  Prog.wp_throw.2 (herror _ d h)

/-! ### The derivation -/

/-- The tables with more observations. -/
structure Extends (t t' : Tables) : Prop where
  events : t'.events = t.events
  state : t'.state = t.state
  observations : t.observations <+: t'.observations

theorem Extends.refl (t : Tables) : Extends t t := ⟨rfl, rfl, List.prefix_rfl⟩

theorem Extends.trans {t t' t'' : Tables} (h : Extends t t') (h' : Extends t' t'') : Extends t t'' :=
  ⟨h'.events.trans h.events, h'.state.trans h.state, h.observations.trans h'.observations⟩

/-- A statement of the projection is executed, and adds at most an observation. -/
theorem Query.Projects.run {q : Query} (hq : q.Projects) (t : Tables) :
    ∃ a write, schema.run q t = .ok (a, write) ∧ Extends t (write t) := by
  cases q with
  | selectState => exact hq.elim
  | insertEvent row => exact hq.elim
  | selectEvents addresses block => exact ⟨_, _, rfl, .refl t⟩
  | selectObservation windowEnd settlementAddress => exact ⟨_, _, rfl, .refl t⟩
  | insertObservation row =>
    by_cases hrow : (t.observations.any fun r => r.observationHash = row.observationHash) = true
    · exact ⟨(), fun t => t, by simp only [schema, if_pos hrow], .refl t⟩
    · exact ⟨(), fun t => { t with observations := t.observations ++ [row] },
        by simp only [schema, if_neg hrow], rfl, rfl, List.prefix_append _ _⟩
  | putState state => exact hq.elim

/-- **What a derivation does**: the statements change the tables as `R` says. -/
theorem Derives.wp {statements : Query → Prop} {R : Tables → Tables → Prop} {p : Exec α}
    (hp : Derives statements p) (hrefl : ∀ t, R t t)
    (htrans : ∀ t t' t'', R t t' → R t' t'' → R t t'')
    (hR : ∀ q, statements q → ∀ t, ∃ a write, schema.run q t = .ok (a, write) ∧ R t (write t))
    {Φ : Except ApiError α → Worlds ι → Prop} (h : Running C D i n t₀ w₀ t₁ d)
    (hok : ∀ a w t₂ d', w₀.later w → R t₁ t₂ → Running C D i n t₀ w t₂ d' → Φ (.ok a) d')
    (herror : ∀ e d', Out (discipline C D) i n d' → Φ (.error e) d') :
    p.wp (obligations C D lost i) Φ d := by
  induction hp generalizing w₀ t₁ d with
  | pure a => exact Prog.wp_pure.2 (hok a w₀ t₁ d (.refl _) (hrefl _) h)
  | throw e => exact Prog.wp_throw.2 (herror e d h.out)
  | call o _ ih =>
    rw [Prog.wp_bind]
    refine wp_client h (fun a w d hw _ h => ?_) herror
    exact ih a h fun a' w' t₂ d' hw' => hok a' w' t₂ d' (hw.trans hw')
  | query q hq _ ih =>
    obtain ⟨a, write, hrun, hwrite⟩ := hR q hq t₁
    rw [Prog.wp_bind]
    refine wp_query h hrun (fun d h => ?_) herror
    exact ih a h fun a' w' t₂ d' hw' h' => hok a' w' t₂ d' hw' (htrans _ _ _ hwrite h')

/-! ### The logs -/

/-- The batches of a range. -/
def Chain.batches (C : Chain) (D : Deployment) (first last : ℕ) (contracts : List Contract) :
    Batches :=
  contracts.map fun c => (c, C.logsIn (D.address c).toLowerCase first last)

theorem readBatches_wp {first last : ℕ} {contracts : List Contract}
    {Φ : Except ApiError Batches → Worlds ι → Prop} (h : Running C D i n t₀ w₀ t₁ d)
    (hlast : last ≤ w₀.final)
    (hok : ∀ w d', w₀.later w → Running C D i n t₀ w t₁ d' →
      Φ (.ok (C.batches D first last contracts)) d')
    (herror : ∀ e d', Out (discipline C D) i n d' → Φ (.error e) d') :
    (readBatches D first last contracts).wp (obligations C D lost i) Φ d := by
  induction contracts generalizing w₀ d Φ with
  | nil => exact Prog.wp_pure.2 (hok w₀ d (.refl _) h)
  | cons c contracts ih =>
    unfold readBatches
    rw [Prog.wp_bind]
    refine wp_client h (fun logs w d hw hlogs h => ?_) herror
    obtain rfl := hlogs (hlast.trans hw.2)
    show Prog.wp _ _ _ _
    rw [Prog.wp_bind]
    refine ih h (hlast.trans hw.2) (fun w' d' hw' h => ?_) herror
    exact Prog.wp_pure.2 (hok w' d' (hw.trans hw') h)

/-- The loop reads the logs of a range that is not empty. -/
theorem fetch_wp {first fuel width : ℕ} {Φ : Except ApiError (ℕ × Batches) → Worlds ι → Prop}
    (h : Running C D i n t₀ w₀ t₁ d) (hlast : first + width ≤ w₀.final)
    (hok : ∀ last w d', first ≤ last → last ≤ first + width → w₀.later w →
      Running C D i n t₀ w t₁ d' → Φ (.ok (last, C.batches D first last Contract.all)) d')
    (herror : ∀ e d', Out (discipline C D) i n d' → Φ (.error e) d') :
    (fetch D first fuel width).wp (obligations C D lost i) Φ d := by
  induction fuel generalizing w₀ d width with
  | zero =>
    unfold fetch
    rw [Prog.wp_bind]
    refine readBatches_wp h hlast (fun w d hw h => ?_) herror
    exact Prog.wp_pure.2 (hok _ w d (Nat.le_add_right _ _) le_rfl hw h)
  | succ fuel ih =>
    unfold fetch
    rw [Prog.wp_bind]
    refine readBatches_wp h hlast (fun w d hw h => ?_) herror
    show Prog.wp _ _ _ _
    refine Prog.wp_ite (fun _ => ?_) fun _ => ?_
    · exact Prog.wp_pure.2 (hok _ w d (Nat.le_add_right _ _) le_rfl hw h)
    · have hhalf : first + width / 2 ≤ first + width := by omega
      refine ih h ((hhalf.trans hlast).trans hw.2) fun last w' d' hfirst hle hw' h => ?_
      exact hok last w' d' hfirst (hle.trans hhalf) (hw.trans hw') h

/-- Enough fuel makes no difference. -/
theorem fetch_fuel (first : ℕ) {fuel fuel' width : ℕ} (h : width ≤ fuel) (h' : width ≤ fuel') :
    fetch D first fuel width = fetch D first fuel' width := by
  induction fuel generalizing fuel' width with
  | zero =>
    obtain rfl : width = 0 := Nat.le_zero.1 h
    cases fuel' with
    | zero => rfl
    | succ fuel' => simp only [fetch, or_true, ↓reduceIte]
  | succ fuel ih =>
    cases fuel' with
    | zero =>
      obtain rfl : width = 0 := Nat.le_zero.1 h'
      simp only [fetch, or_true, ↓reduceIte]
    | succ fuel' =>
      unfold fetch
      by_cases hwidth : width = 0
      · simp only [hwidth, or_true, ↓reduceIte]
      · rw [@ih fuel' (width / 2) (by omega) (by omega)]

/-- **The loop is the one of the source**: it halves the range until there are few enough logs or
only one block is left. -/
theorem fetch_while (first width : ℕ) : fetch D first width width = (do
    let batches ← readBatches D first (first + width) Contract.all
    if batches.count ≤ 10000 ∨ width = 0 then return (first + width, batches)
    else fetch D first (width / 2) (width / 2)) := by
  cases width with
  | zero => simp only [fetch, or_true, ↓reduceIte]
  | succ width =>
    rw [@fetch_fuel D first ((width + 1) / 2) width ((width + 1) / 2) le_rfl (by omega)]
    rfl

/-! ### The events -/

/-- The blocks that were read. -/
def Canonical (C : Chain) (blocks : Blocks) : Prop :=
  ∀ b ∈ blocks, b.2 = (C.timestamp b.1, C.hash b.1)

theorem blockOf_wp {blocks : Blocks} {number : ℕ}
    {Φ : Except ApiError (Blocks × ℕ × JsString) → Worlds ι → Prop}
    (h : Running C D i n t₀ w₀ t₁ d) (hblocks : Canonical C blocks) (hnumber : number ≤ w₀.final)
    (hok : ∀ blocks w d', Canonical C blocks → w₀.later w → Running C D i n t₀ w t₁ d' →
      Φ (.ok (blocks, C.timestamp number, C.hash number)) d')
    (herror : ∀ e d', Out (discipline C D) i n d' → Φ (.error e) d') :
    (blockOf blocks number).wp (obligations C D lost i) Φ d := by
  unfold blockOf
  cases hfind : blocks.find? fun b => b.1 = number with
  | some b =>
    have hnumber' : b.1 = number := by simpa using List.find?_some hfind
    have hb := hblocks b (List.mem_of_find?_eq_some hfind)
    rw [hnumber'] at hb
    refine Prog.wp_pure.2 ?_
    rw [hb]
    exact hok blocks w₀ d hblocks (.refl _) h
  | none =>
    show Prog.wp _ _ _ _
    rw [Prog.wp_bind]
    refine wp_client h (fun block w d hw hblock h => ?_) herror
    obtain rfl := hblock (hnumber.trans hw.2)
    show Prog.wp _ _ _ _
    refine Prog.wp_ite (fun _ => wp_raise herror h.out) fun _ => ?_
    refine Prog.wp_pure.2 (hok _ w d ?_ hw h)
    intro b hb
    rcases List.mem_cons.1 hb with rfl | hb
    · rfl
    · exact hblocks b hb

/-- The tables with more events. -/
def Tables.addEvents (t : Tables) (rows : List EventRow) : Tables :=
  { t with events := t.events ++ rows }

theorem addEvents_append (t : Tables) (rows rows' : List EventRow) :
    (t.addEvents rows).addEvents rows' = t.addEvents (rows ++ rows') := by
  rw [Tables.addEvents, Tables.addEvents, Tables.addEvents, List.append_assoc]

theorem addEvents_nil (t : Tables) : t.addEvents [] = t := by
  rw [Tables.addEvents, List.append_nil]

/-- A row with a new key is inserted. -/
theorem run_insertEvent {t : Tables} {row : EventRow}
    (hnew : ((t.events ++ [row]).map EventRow.key).Nodup) :
    schema.run (.insertEvent row) t = .ok ((), fun t => t.addEvents [row]) := by
  have hnone : ¬ (t.events.any fun r => r.key = row.key) = true := by
    intro hany
    obtain ⟨r, hr, hkey⟩ := List.any_eq_true.1 hany
    rw [List.map_append] at hnew
    exact (List.nodup_append.1 hnew).2.2 r.key (List.mem_map_of_mem hr) row.key
      (List.mem_map_of_mem (List.mem_singleton_self row)) (of_decide_eq_true hkey)
  simp only [schema, if_neg hnone]
  rfl

variable {first last : ℕ} {c : Contract}

theorem insertLog_wp {blocks : Blocks} {e : ℕ × MinedLog}
    {Φ : Except ApiError Blocks → Worlds ι → Prop} (h : Running C D i n t₀ w₀ t₁ d)
    (hblocks : Canonical C blocks) (hlast : last ≤ w₀.final)
    (he : e ∈ C.entries (D.address c).toLowerCase first last)
    (hnew : ((t₁.events ++ (C.row D c e).toList).map EventRow.key).Nodup)
    (hok : ∀ blocks w d', Canonical C blocks → w₀.later w →
      Running C D i n t₀ w (t₁.addEvents (C.row D c e).toList) d' → Φ (.ok blocks) d')
    (herror : ∀ e d', Out (discipline C D) i n d' → Φ (.error e) d') :
    (insertLog D c first last blocks (C.log e.1 e.2)).wp (obligations C D lost i) Φ d := by
  obtain ⟨⟨hfirst, hle⟩, hlog⟩ := mem_entries.1 he
  unfold insertLog
  show Prog.wp _ _ _ _
  refine Prog.wp_ite (fun hremoved => by cases hremoved) fun _ => ?_
  refine Prog.wp_ite (fun _ => wp_raise herror h.out) fun _ => ?_
  have hdecode : (C.log e.1 e.2).data = e.2.data ∧ (C.log e.1 e.2).topics = e.2.topics :=
    ⟨rfl, rfl⟩
  rw [hdecode.1, hdecode.2]
  cases hevent : D.decode c e.2.data e.2.topics with
  | none =>
    have hrow : C.row D c e = none := by rw [Chain.row, hevent]; rfl
    rw [hrow, Option.toList_none, addEvents_nil] at hok
    exact Prog.wp_pure.2 (hok blocks w₀ d hblocks (.refl _) h)
  | some event =>
    obtain ⟨eventName, args⟩ := event
    have hrow : C.row D c e = some ⟨(D.address c).toLowerCase, e.2.transactionHash, e.2.logIndex,
        e.1, C.hash e.1, C.timestamp e.1, eventName, args⟩ := by rw [Chain.row, hevent]; rfl
    rw [hrow, Option.toList_some] at hok hnew
    show Prog.wp _ _ _ _
    rw [Prog.wp_bind]
    refine blockOf_wp h hblocks (hle.trans hlast) (fun blocks w d hblocks hw h => ?_) herror
    show Prog.wp _ _ _ _
    refine Prog.wp_ite (fun hne => absurd rfl hne) fun _ => ?_
    rw [Prog.wp_bind]
    refine wp_query h (run_insertEvent hnew) (fun d h => ?_) herror
    exact Prog.wp_pure.2 (hok blocks w d hblocks hw h)

theorem insertLogs_wp {blocks : Blocks} {es : List (ℕ × MinedLog)}
    {Φ : Except ApiError Blocks → Worlds ι → Prop} (h : Running C D i n t₀ w₀ t₁ d)
    (hblocks : Canonical C blocks) (hlast : last ≤ w₀.final)
    (hes : ∀ e ∈ es, e ∈ C.entries (D.address c).toLowerCase first last)
    (hnew : ((t₁.events ++ es.filterMap (C.row D c)).map EventRow.key).Nodup)
    (hok : ∀ blocks w d', Canonical C blocks → w₀.later w →
      Running C D i n t₀ w (t₁.addEvents (es.filterMap (C.row D c))) d' → Φ (.ok blocks) d')
    (herror : ∀ e d', Out (discipline C D) i n d' → Φ (.error e) d') :
    (insertLogs D c first last blocks (es.map fun e => C.log e.1 e.2)).wp
      (obligations C D lost i) Φ d := by
  induction es generalizing w₀ t₁ d blocks with
  | nil =>
    rw [List.filterMap_nil, addEvents_nil] at hok
    exact Prog.wp_pure.2 (hok blocks w₀ d hblocks (.refl _) h)
  | cons e es ih =>
    have hrows : (e :: es).filterMap (C.row D c) =
        (C.row D c e).toList ++ es.filterMap (C.row D c) := by
      cases hrow : C.row D c e with
      | none => rw [List.filterMap_cons_none hrow]; rfl
      | some r => rw [List.filterMap_cons_some hrow]; rfl
    rw [hrows, ← List.append_assoc] at hnew
    rw [hrows, ← addEvents_append] at hok
    show (insertLogs D c first last blocks (C.log e.1 e.2 :: _)).wp _ _ _
    unfold insertLogs
    rw [Prog.wp_bind]
    have hsub := (hnew.sublist ((List.sublist_append_left _ _).map _))
    refine insertLog_wp h hblocks hlast (hes e List.mem_cons_self) hsub
      (fun blocks w d hblocks hw h => ?_) herror
    refine ih h hblocks (hlast.trans hw.2) (fun e' he' => hes e' (List.mem_cons_of_mem _ he')) hnew
      fun blocks' w' d' hblocks' hw' h => hok blocks' w' d' hblocks' (hw.trans hw') h

theorem insertBatches_wp {blocks : Blocks} {contracts : List Contract}
    {Φ : Except ApiError Unit → Worlds ι → Prop} (h : Running C D i n t₀ w₀ t₁ d)
    (hblocks : Canonical C blocks) (hlast : last ≤ w₀.final)
    (hnew : ((t₁.events ++ contracts.flatMap fun c => C.rowsOf D c first last).map
      EventRow.key).Nodup)
    (hok : ∀ w d', w₀.later w → Running C D i n t₀ w
      (t₁.addEvents (contracts.flatMap fun c => C.rowsOf D c first last)) d' → Φ (.ok ()) d')
    (herror : ∀ e d', Out (discipline C D) i n d' → Φ (.error e) d') :
    (insertBatches D first last blocks (C.batches D first last contracts)).wp
      (obligations C D lost i) Φ d := by
  induction contracts generalizing w₀ t₁ d blocks with
  | nil =>
    rw [List.flatMap_nil, addEvents_nil] at hok
    exact Prog.wp_pure.2 (hok w₀ d (.refl _) h)
  | cons c contracts ih =>
    rw [List.flatMap_cons, ← List.append_assoc] at hnew
    rw [List.flatMap_cons, ← addEvents_append] at hok
    show (insertBatches D first last blocks ((c, C.logsIn _ first last) :: _)).wp _ _ _
    unfold insertBatches
    rw [Prog.wp_bind]
    have hsub := (hnew.sublist ((List.sublist_append_left _ _).map _))
    have hentries : ∀ e ∈ C.entries (D.address c).toLowerCase first last,
        e ∈ C.entries (D.address c).toLowerCase first last := fun _ he => he
    refine insertLogs_wp h hblocks hlast hentries hsub (fun blocks w d hblocks hw h => ?_) herror
    exact ih h hblocks (hlast.trans hw.2) hnew fun w' d' hw' h => hok w' d' (hw.trans hw') h

end Indexer

end Obolos
