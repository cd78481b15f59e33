import Obolos.Js.BigInt

/-!
# Lines, and searching in them

`splitLines` is `split(/\r?\n/)`.  A regular expression without anchors is the test whether it
matches at the start of a text, and `search` looks for it everywhere.  A match that is found in a
part of a text is found in the text (`search_of_infixOf`), and one that does not read beyond the
end of a line is found in a text exactly if it is found in one of its lines (`search_lines`).
-/

namespace Obolos

namespace JsString

/-- `text.split(/\r?\n/)` -/
def splitLines : JsString → List JsString
  | [] => [[]]
  | c :: s =>
    if c = 10 then [] :: splitLines s
    else if c = 13 ∧ s.head? = some 10 then splitLines s
    else
      match splitLines s with
      | [] => [[c]]
      | line :: lines => (c :: line) :: lines

/-- Whether a match can start somewhere in the text. -/
def search (p : JsString → Bool) : JsString → Bool
  | [] => p []
  | c :: s => p (c :: s) || search p s

/-- `[^\n]{0,n}` and then `p` -/
def within (p : JsString → Bool) : ℕ → JsString → Bool
  | 0, s => p s
  | _ + 1, [] => p []
  | n + 1, c :: s => p (c :: s) || (c != 10 && within p n s)

/-- The text after a word, whose letters may be of either case. -/
def dropAnyCase (word s : JsString) : Option JsString :=
  if toLowerCase (s.take word.length) = word then some (s.drop word.length) else none

/-- A match stays one when the text goes on. -/
def Extends (p : JsString → Bool) : Prop := ∀ s t, p s = true → p (s ++ t) = true

/-- A match does not read beyond the end of a line. -/
def InLine (p : JsString → Bool) : Prop := ∀ s t, p (s ++ 10 :: t) = p s

variable {p : JsString → Bool}

/-! ### Searching -/

theorem search_eq_true {s : JsString} : search p s = true ↔ ∃ a b, s = a ++ b ∧ p b = true := by
  induction s with
  | nil =>
    refine ⟨fun h => ⟨[], [], rfl, h⟩, fun ⟨a, b, hs, h⟩ => ?_⟩
    obtain ⟨rfl, rfl⟩ := List.append_eq_nil_iff.1 hs.symm
    exact h
  | cons c s ih =>
    rw [search, Bool.or_eq_true, ih]
    constructor
    · rintro (h | ⟨a, b, rfl, h⟩)
      · exact ⟨[], c :: s, rfl, h⟩
      · exact ⟨c :: a, b, rfl, h⟩
    · rintro ⟨a, b, hs, h⟩
      cases a with
      | nil => exact Or.inl (hs ▸ h)
      | cons d a =>
        rw [List.cons_append, List.cons.injEq] at hs
        exact Or.inr ⟨a, b, hs.2, h⟩

/-- What is found in a part is found in the whole. -/
theorem search_of_infixOf (hp : Extends p) {s t : JsString} (h : s <:+: t) (hs : search p s = true) :
    search p t = true := by
  obtain ⟨before, after, rfl⟩ := h
  obtain ⟨a, b, rfl, hb⟩ := search_eq_true.1 hs
  exact search_eq_true.2 ⟨before ++ a, b ++ after, by simp, hp b after hb⟩

/-- What is found in two lines is found in one of them. -/
theorem search_newline (hp : InLine p) (s t : JsString) :
    search p (s ++ 10 :: t) = (search p s || search p t) := by
  induction s with
  | nil =>
    have hline : p (10 :: t) = p [] := hp [] t
    rw [List.nil_append, search, search, hline]
  | cons c s ih =>
    have hline : p (c :: (s ++ 10 :: t)) = p (c :: s) := hp (c :: s) t
    rw [List.cons_append, search, search, hline, ih, Bool.or_assoc]

theorem join_cons (line next : JsString) (lines : List JsString) :
    List.intercalate [10] (line :: next :: lines) =
      line ++ 10 :: List.intercalate [10] (next :: lines) := by
  simp [List.intercalate]

/-- What is found in a text of lines is found in a line. -/
theorem search_lines (hp : InLine p) {lines : List JsString} (hne : lines ≠ []) :
    search p (List.intercalate [10] lines) = lines.any (search p) := by
  induction lines with
  | nil => exact absurd rfl hne
  | cons line lines ih =>
    cases lines with
    | nil => simp
    | cons next lines =>
      rw [join_cons, search_newline hp, ih (List.cons_ne_nil _ _)]
      rfl

/-- Nothing is found that starts in a prefix. -/
theorem search_append {u : JsString} (s : JsString)
    (h : ∀ v, v <:+ u → v ≠ [] → p (v ++ s) = false) : search p (u ++ s) = search p s := by
  induction u with
  | nil => rfl
  | cons c u ih =>
    have hhead := h (c :: u) List.suffix_rfl (List.cons_ne_nil _ _)
    rw [List.cons_append] at hhead ⊢
    rw [search, hhead, Bool.false_or]
    exact ih fun v hv => h v (hv.trans (List.suffix_cons _ _))

theorem Extends.within (hp : Extends p) (n : ℕ) : Extends (within p n) := by
  induction n with
  | zero => exact hp
  | succ n ih =>
    intro s t h
    cases s with
    | nil =>
      have ht := hp [] t h
      cases t with
      | nil => exact ht
      | cons d t => exact Bool.or_eq_true _ _ ▸ Or.inl ht
    | cons c s =>
      rw [JsString.within, Bool.or_eq_true, Bool.and_eq_true] at h
      rw [List.cons_append, JsString.within, Bool.or_eq_true, Bool.and_eq_true]
      exact h.imp (hp (c :: s) t) fun ⟨hc, hs⟩ => ⟨hc, ih s t hs⟩

theorem InLine.within (hp : InLine p) (n : ℕ) : InLine (within p n) := by
  induction n with
  | zero => exact hp
  | succ n ih =>
    intro s t
    have hline := hp s t
    cases s with
    | nil =>
      rw [List.nil_append] at hline ⊢
      rw [JsString.within, JsString.within, hline, bne_self_eq_false, Bool.false_and, Bool.or_false]
    | cons c s =>
      rw [List.cons_append] at hline ⊢
      rw [JsString.within, JsString.within, hline, ih s t]

/-- A match is near. -/
theorem within_of_eq (n : ℕ) {s : JsString} (h : p s = true) : within p n s = true := by
  cases n with
  | zero => exact h
  | succ n =>
    cases s with
    | nil => exact h
    | cons c s => rw [within, h, Bool.true_or]

theorem within_cons {n : ℕ} {c : UInt16} {s : JsString} (hc : c ≠ 10) (h : within p n s = true) :
    within p (n + 1) (c :: s) = true := by
  rw [within, h, Bool.and_true, Bool.or_eq_true]
  exact Or.inr (bne_iff_ne.2 hc)

/-! ### Words -/

theorem length_toLowerCase (s : JsString) : s.toLowerCase.length = s.length := List.length_map ..

/-- A word is read before the text goes on. -/
theorem dropAnyCase_append {word s rest : JsString} (t : JsString)
    (h : dropAnyCase word s = some rest) : dropAnyCase word (s ++ t) = some (rest ++ t) := by
  unfold dropAnyCase at h ⊢
  split_ifs at h with hword
  · have hlength : word.length ≤ s.length := by
      have heq := congrArg List.length hword
      rw [length_toLowerCase, List.length_take] at heq
      omega
    rw [List.take_append_of_le_length hlength, if_pos hword, List.drop_append_of_le_length hlength]
    rw [Option.some.inj h]

/-- A word is not read over the end of a line. -/
theorem dropAnyCase_newline {word s : JsString} (t : JsString) (hword : 10 ∉ word)
    (h : dropAnyCase word s = none) : dropAnyCase word (s ++ 10 :: t) = none := by
  unfold dropAnyCase at h ⊢
  split_ifs at h with hne
  refine if_neg fun heq => ?_
  by_cases hlength : word.length ≤ s.length
  · rw [List.take_append_of_le_length hlength] at heq
    exact hne heq
  · have hmem : (10 : UInt16) ∈ toLowerCase ((s ++ 10 :: t).take word.length) := by
      refine List.mem_map.2 ⟨10, ?_, by decide⟩
      obtain ⟨k, hk⟩ : ∃ k, word.length - s.length = k + 1 := ⟨word.length - s.length - 1, by omega⟩
      rw [List.take_append, hk, List.take_succ_cons]
      simp
    exact hword (heq ▸ hmem)

/-- Two texts differ in a letter. -/
def differ : JsString → JsString → Bool
  | c :: s, d :: t => c != d || differ s t
  | _, _ => false

/-- A word is not read in a text that differs from it. -/
theorem dropAnyCase_differ {word s : JsString} (t : JsString)
    (h : differ word s.toLowerCase = true) : dropAnyCase word (s ++ t) = none := by
  refine if_neg fun heq => ?_
  induction word generalizing s with
  | nil => cases h
  | cons c word ih =>
    cases s with
    | nil => cases h
    | cons d s =>
      rw [List.cons_append, List.length_cons, List.take_succ_cons] at heq
      have hcons := List.cons.inj heq
      have hd : differ (c :: word) (toLowerCase (d :: s)) =
          (c != (if 65 ≤ d && d ≤ 90 then d + 32 else d) || differ word (toLowerCase s)) := rfl
      rw [hd, Bool.or_eq_true] at h
      rcases h with h | h
      · exact absurd hcons.1.symm (by simpa using h)
      · exact ih h hcons.2

/-! ### Patterns -/

variable {q : JsString → Bool}

theorem Extends.or (hp : Extends p) (hq : Extends q) : Extends fun s => p s || q s := by
  intro s t h
  rw [Bool.or_eq_true] at h ⊢
  exact h.imp (hp s t) (hq s t)

theorem InLine.or (hp : InLine p) (hq : InLine q) : InLine fun s => p s || q s := by
  intro s t
  simp only [hp s t, hq s t]

theorem Extends.any {α : Type} {l : List α} {p : α → JsString → Bool}
    (h : ∀ a ∈ l, Extends (p a)) : Extends fun s => l.any fun a => p a s := by
  intro s t hs
  obtain ⟨a, ha, hpa⟩ := List.any_eq_true.1 hs
  exact List.any_eq_true.2 ⟨a, ha, h a ha s t hpa⟩

theorem InLine.any {α : Type} {l : List α} {p : α → JsString → Bool}
    (h : ∀ a ∈ l, InLine (p a)) : InLine fun s => l.any fun a => p a s := by
  intro s t
  rw [Bool.eq_iff_iff, List.any_eq_true, List.any_eq_true]
  exact exists_congr fun a => and_congr_right fun ha => by rw [h a ha s t]

/-- A word, and then `p`. -/
theorem Extends.after (word : JsString) (hp : Extends p) :
    Extends fun s => (dropAnyCase word s).any p := by
  intro s t h
  cases hs : dropAnyCase word s with
  | none => simp [hs] at h
  | some rest =>
    simp only [hs, Option.any_some] at h
    simp only [dropAnyCase_append t hs, Option.any_some, hp rest t h]

theorem InLine.after {word : JsString} (h : 10 ∉ word) (hp : InLine p) :
    InLine fun s => (dropAnyCase word s).any p := by
  intro s t
  cases hs : dropAnyCase word s with
  | none => simp only [dropAnyCase_newline t h hs, hs]
  | some rest => simp only [dropAnyCase_append (10 :: t) hs, hs, Option.any_some, hp rest t]

/-- A letter of some kind, and then `p`. -/
theorem Extends.cons (kind : UInt16 → Bool) (hp : Extends p) :
    Extends fun s => match s with | [] => false | c :: s => kind c && p s := by
  intro s t h
  cases s with
  | nil => cases h
  | cons c s =>
    simp only [Bool.and_eq_true] at h
    simp only [List.cons_append, h.1, hp s t h.2, Bool.and_self]

theorem InLine.cons {kind : UInt16 → Bool} (h : kind 10 = false) (hp : InLine p) :
    InLine fun s => match s with | [] => false | c :: s => kind c && p s := by
  intro s t
  cases s with
  | nil => simp [h]
  | cons c s => simp only [List.cons_append, hp s t]

/-! ### Lines -/

/-- A text without ends of lines is one line. -/
theorem splitLines_eq {s : JsString} (h : ∀ c ∈ s, c ≠ 10 ∧ c ≠ 13) : splitLines s = [s] := by
  induction s with
  | nil => rfl
  | cons c s ih =>
    obtain ⟨h10, h13⟩ := h c List.mem_cons_self
    rw [splitLines, if_neg h10, if_neg fun hc => h13 hc.1,
      ih fun d hd => h d (List.mem_cons_of_mem _ hd)]

/-- The lines of a text that goes on in a new line: those of the rest, after parts of the text. -/
theorem splitLines_newline (s t : JsString) :
    ∃ line lines, splitLines (s ++ 10 :: t) = line :: lines ++ splitLines t ∧ line <+: s ∧
      (∀ l ∈ lines, l <:+: s) ∧ ((s ++ 10 :: t).head? = some 10 → line = []) := by
  induction s with
  | nil => exact ⟨[], [], by simp [splitLines], List.prefix_rfl, by simp, fun _ => rfl⟩
  | cons c s ih =>
    obtain ⟨line, lines, heq, hline, hlines, hempty⟩ := ih
    have hparts : ∀ l ∈ lines, l <:+: c :: s := fun l hl =>
      (hlines l hl).trans (List.suffix_cons c s).isInfix
    rw [List.cons_append, splitLines]
    split_ifs with h10 h13
    · refine ⟨[], line :: lines, congrArg ([] :: ·) heq, List.nil_prefix, ?_, fun _ => rfl⟩
      intro l hl
      rcases List.mem_cons.1 hl with rfl | hl
      · exact hline.isInfix.trans (List.suffix_cons c s).isInfix
      · exact hparts l hl
    · -- the end of the line is already counted
      rw [hempty h13.2] at heq
      exact ⟨[], lines, heq, List.nil_prefix, hparts, fun _ => rfl⟩
    · rw [heq]
      refine ⟨c :: line, lines, rfl, ?_, hparts, fun hc => absurd (Option.some.inj hc) h10⟩
      exact List.prefix_cons_inj c |>.2 hline

/-- A text without ends of lines before a new line. -/
theorem splitLines_cons {s : JsString} (t : JsString) (h : ∀ c ∈ s, c ≠ 10 ∧ c ≠ 13) :
    splitLines (s ++ 10 :: t) = s :: splitLines t := by
  induction s with
  | nil => simp [splitLines]
  | cons c s ih =>
    obtain ⟨h10, h13⟩ := h c List.mem_cons_self
    rw [List.cons_append, splitLines, if_neg h10, if_neg fun hc => h13 hc.1,
      ih fun d hd => h d (List.mem_cons_of_mem _ hd)]

/-- The lines that a text was made of. -/
theorem splitLines_join {lines : List JsString} (hne : lines ≠ [])
    (h : ∀ line ∈ lines, ∀ c ∈ line, c ≠ 10 ∧ c ≠ 13) :
    splitLines (List.intercalate [10] lines) = lines := by
  induction lines with
  | nil => exact absurd rfl hne
  | cons line lines ih =>
    have hline := h line List.mem_cons_self
    cases lines with
    | nil => simpa using splitLines_eq hline
    | cons next lines =>
      rw [join_cons, splitLines_cons _ hline,
        ih (List.cons_ne_nil _ _) fun l hl => h l (List.mem_cons_of_mem _ hl)]

end JsString

end Obolos
