import Obolos.Js.Lines
import Obolos.Js.Parse
import Obolos.Js.BigInt
import Obolos.Runs.Evidence

/-!
# The report of the worker

`formatWorkerReport` lays out what the model of the worker answers: its analysis, one row of
metrics for each repository, and the sources.  An analysis that claims metrics of its own
(`hasMetricClaim`) is refused.
-/

namespace Obolos

namespace Runs

open Json JsString

/-! ### Claims of metrics -/

/-- `stars?|forks?|issues?`, without the `s` -/
def claimWords : List JsString := [js "star", js "fork", js "issue"]

/-- `\d` -/
def digitAt : JsString → Bool
  | [] => false
  | c :: _ => isDigit c

/-- `stars?|forks?|issues?` -/
def wordAt (s : JsString) : Bool :=
  claimWords.any fun word => (dropAnyCase word s).any fun _ => true

/-- `\d[^\n]{0,40}(?:stars?|forks?|issues?)` -/
def digitThenWord : JsString → Bool
  | [] => false
  | c :: s => isDigit c && within wordAt 40 s

/-- `s?[^\n]{0,40}\d` -/
def digitAfter (s : JsString) : Bool :=
  within digitAt 40 s || (dropAnyCase (js "s") s).any (within digitAt 40)

/-- `(?:stars?|forks?|issues?)[^\n]{0,40}\d` -/
def wordThenDigit (s : JsString) : Bool :=
  claimWords.any fun word => (dropAnyCase word s).any digitAfter

/-- Where a claim of a metric starts. -/
def claimAt (s : JsString) : Bool := digitThenWord s || wordThenDigit s

/-- `/\d[^\n]{0,40}(?:stars?|forks?|issues?)|(?:stars?|forks?|issues?)[^\n]{0,40}\d/i.test(s)` -/
def hasMetricClaim (s : JsString) : Bool := search claimAt s

/-! ### The format -/

/-- A row of the worker. -/
structure WorkerRow where
  repo : JsString
  stars : ℕ
  forks : ℕ
  openIssues : ℕ
  deriving DecidableEq

/-- What the worker answers. -/
structure WorkerOutput where
  analysis : JsString
  repositories : List WorkerRow
  deriving DecidableEq

/-- `z.number().int().nonnegative()` -/
def readCount : Json → Option ℕ
  | .num q => if Evidence.isCount (some (.num q)) then some q.num.toNat else none
  | _ => none

/-- `row` -/
def readWorkerRow (x : Json) : Except JsError WorkerRow := do
  let fields ← strictFields ["repo", "stars", "forks", "openIssues"] x
  let repo ← field asStr "repo" fields
  let stars ← field readCount "stars" fields
  let forks ← field readCount "forks" fields
  let openIssues ← field readCount "openIssues" fields
  return { repo, stars, forks, openIssues }

/-- `output` -/
def readOutput (x : Json) : Except JsError WorkerOutput := do
  let fields ← strictFields ["analysis", "repositories"] x
  let analysis ← field asStr "analysis" fields
  if analysis.length < 1 ∨ 6000 < analysis.length then .error .zod
  let items ← field asArr "repositories" fields
  if items.length < 1 ∨ 3 < items.length then .error .zod
  let repositories ← items.mapM readWorkerRow
  return { analysis, repositories }

/-- The line of a row. -/
def WorkerRow.line (r : WorkerRow) : JsString :=
  r.repo ++ (js " | stars=" ++ (decimal r.stars ++ (js " | forks=" ++ (decimal r.forks ++
    (js " | openIssues=" ++ decimal r.openIssues)))))

/-- The line of a source. -/
def sourceLine (repo : JsString) : JsString := js "Source: " ++ Evidence.sourceUrl repo

/-- The summary of a report. -/
def WorkerOutput.summary (output : WorkerOutput) (repos : List JsString) : JsString :=
  joinLines (output.analysis :: [] :: (output.repositories.map WorkerRow.line ++
    [] :: repos.map sourceLine))

/-- Whether there is one row for each repository. -/
def WorkerOutput.covers (output : WorkerOutput) (repos : List JsString) : Bool :=
  let names := output.repositories.map WorkerRow.repo
  decide (output.repositories.length = repos.length) &&
    decide (names.dedup.length = repos.length) && names.all (repos.contains ·)

/-- `output.parse(JSON.parse(content))` -/
def parseOutput (readNumber : JsString → Option Json) (content : JsString) :
    Except JsError WorkerOutput :=
  match parse readNumber content with
  | none => .error .other
  | some x => readOutput x

/-- `formatWorkerReport(content, repos)` -/
def formatWorkerReport (readNumber : JsString → Option Json) (content : JsString)
    (repos : List JsString) : Except JsError JsString := do
  let output ← parseOutput readNumber content
  if output.covers repos = false then JsError.raise "Worker repository coverage is invalid."
  if hasMetricClaim output.analysis then
    JsError.raise "Worker analysis includes out-of-format numeric metric claims."
  return output.summary repos

/-! ### What a claim is -/

section Claims

theorem extends_digitAt : Extends digitAt := by
  intro s t h
  cases s with
  | nil => cases h
  | cons c s => exact h

theorem inLine_digitAt : InLine digitAt := by
  intro s t
  cases s <;> rfl

theorem newline_not_mem {word : JsString} (h : word ∈ js "s" :: claimWords) : 10 ∉ word := by
  revert word
  decide

/-- A claim stays one when the text goes on. -/
theorem extends_claimAt : Extends claimAt := by
  have hword : Extends wordAt := Extends.any fun word _ => Extends.after word fun _ _ _ => rfl
  have hdigit : Extends digitAfter :=
    (extends_digitAt.within 40).or (Extends.after _ (extends_digitAt.within 40))
  have hfirst : Extends digitThenWord := by
    intro s t h
    cases s with
    | nil => cases h
    | cons c s => exact Extends.cons isDigit (hword.within 40) (c :: s) t h
  exact hfirst.or (Extends.any fun word _ => Extends.after word hdigit)

/-- A claim is made in one line. -/
theorem inLine_claimAt : InLine claimAt := by
  have hword : InLine wordAt := InLine.any fun word hword =>
    InLine.after (newline_not_mem (List.mem_cons_of_mem _ hword)) fun _ _ => rfl
  have hdigit : InLine digitAfter := (inLine_digitAt.within 40).or
    (InLine.after (newline_not_mem List.mem_cons_self) (inLine_digitAt.within 40))
  have hfirst : InLine digitThenWord := by
    intro s t
    cases s with
    | nil => rfl
    | cons c s => exact InLine.cons (by decide : isDigit 10 = false) (hword.within 40) (c :: s) t
  exact hfirst.or (InLine.any fun word hword =>
    InLine.after (newline_not_mem (List.mem_cons_of_mem _ hword)) hdigit)

/-- No claim starts in the text, whatever follows it. -/
def quiet : JsString → Bool
  | [] => true
  | c :: s => !isDigit c && claimWords.all (fun word => differ word (toLowerCase (c :: s))) &&
      quiet s

theorem claimAt_quiet {u : JsString} (h : quiet u = true) (s : JsString) :
    ∀ v, v <:+ u → v ≠ [] → claimAt (v ++ s) = false := by
  induction u with
  | nil => exact fun v hv hne => absurd (List.suffix_nil.1 hv) hne
  | cons c u ih =>
    rw [quiet, Bool.and_eq_true, Bool.and_eq_true, Bool.not_eq_true'] at h
    intro v hv hne
    rcases List.suffix_cons_iff.1 hv with rfl | hv
    · have hword : wordThenDigit (c :: u ++ s) = false := by
        rw [wordThenDigit, List.any_eq_false]
        intro word hword
        rw [dropAnyCase_differ s (List.all_eq_true.1 h.1.2 word hword)]
        exact Bool.false_ne_true
      rw [claimAt, hword, Bool.or_false, List.cons_append, digitThenWord, h.1.1, Bool.false_and]
    · exact ih h.2 v hv hne

/-- The claims after a quiet text are those of the rest. -/
theorem hasMetricClaim_quiet {u : JsString} (h : quiet u = true) (s : JsString) :
    hasMetricClaim (u ++ s) = hasMetricClaim s :=
  search_append s (claimAt_quiet h s)

/-- A line of a source claims what the name of its repository claims. -/
theorem hasMetricClaim_sourceLine (repo : JsString) :
    hasMetricClaim (sourceLine repo) = hasMetricClaim repo := by
  rw [sourceLine, Evidence.sourceUrl, hasMetricClaim_quiet (by decide),
    hasMetricClaim_quiet (by decide)]

/-- A number of stars is a claim. -/
theorem hasMetricClaim_stars (s t : JsString) {c : UInt16} (h : isDigit c = true) :
    hasMetricClaim (s ++ (js "stars=" ++ c :: t)) = true := by
  have hstar : dropAnyCase (js "star") (js "stars=" ++ c :: t) = some (115 :: 61 :: c :: t) := rfl
  have hdigit : digitAfter (115 :: 61 :: c :: t) = true := by
    have hnear : within digitAt 40 (115 :: 61 :: c :: t) = true :=
      within_cons (by decide) (within_cons (by decide) (within_of_eq 38 h))
    rw [digitAfter, hnear, Bool.true_or]
  refine search_eq_true.2 ⟨s, _, rfl, ?_⟩
  rw [claimAt, Bool.or_eq_true]
  refine Or.inr (List.any_eq_true.2 ⟨js "star", List.mem_cons_self, ?_⟩)
  rw [hstar, Option.any_some, hdigit]

end Claims

/-! ### What the format is -/

section Format

variable {readNumber : JsString → Option Json} {content summary : JsString}
  {repos : List JsString} {output : WorkerOutput}

theorem readCount_lt {x : Json} {n : ℕ} (h : readCount x = some n) : n < 2 ^ 53 := by
  unfold readCount at h
  split at h
  · split_ifs at h with hcount
    cases h
    simp only [Evidence.isCount, Bool.and_eq_true, decide_eq_true_eq] at hcount
    omega
  · cases h

/-- What a report that is formatted was made of. -/
theorem formatWorkerReport_eq_ok :
    formatWorkerReport readNumber content repos = .ok summary ↔
      ∃ output, parseOutput readNumber content = .ok output ∧ output.covers repos = true ∧
        hasMetricClaim output.analysis = false ∧ output.summary repos = summary := by
  simp only [formatWorkerReport, JsError.raise, JsError.throwIf_eq_ok, bind_eq_ok, pure_eq_ok,
    Bool.not_eq_false, Bool.not_eq_true]

/-- The rows of an output have counts that are safe integers. -/
theorem readWorkerRow_ok {x : Json} {r : WorkerRow} (h : readWorkerRow x = .ok r) :
    r.stars < 2 ^ 53 ∧ r.forks < 2 ^ 53 ∧ r.openIssues < 2 ^ 53 := by
  have hcount : ∀ {key : String} {fields : List (JsString × Json)} {n : ℕ},
      field readCount key fields = .ok n → n < 2 ^ 53 := by
    intro key fields n hn
    obtain ⟨x, -, hx⟩ := Option.bind_eq_some_iff.1 (field_ok.1 hn)
    exact readCount_lt hx
  simp only [readWorkerRow, bind_eq_ok, pure_eq_ok] at h
  obtain ⟨fields, -, repo, -, stars, hstars, forks, hforks, issues, hissues, rfl⟩ := h
  exact ⟨hcount hstars, hcount hforks, hcount hissues⟩

theorem mem_of_mapM_ok {α β : Type} {f : α → Except JsError β} {items : List α} {results : List β}
    (h : items.mapM f = .ok results) : ∀ b ∈ results, ∃ a ∈ items, f a = .ok b := by
  induction items generalizing results with
  | nil =>
    rw [List.mapM_nil, pure_eq_ok] at h
    subst h
    exact fun b hb => absurd hb List.not_mem_nil
  | cons item items ih =>
    simp only [List.mapM_cons, bind_eq_ok, pure_eq_ok] at h
    obtain ⟨first, hfirst, rest, hrest, rfl⟩ := h
    intro b hb
    rcases List.mem_cons.1 hb with rfl | hb
    · exact ⟨item, List.mem_cons_self, hfirst⟩
    · obtain ⟨a, ha, hfa⟩ := ih hrest b hb
      exact ⟨a, List.mem_cons_of_mem _ ha, hfa⟩

theorem length_of_mapM_ok {α β : Type} {f : α → Except JsError β} {items : List α}
    {results : List β} (h : items.mapM f = .ok results) : results.length = items.length := by
  induction items generalizing results with
  | nil =>
    rw [List.mapM_nil, pure_eq_ok] at h
    rw [← h]
    rfl
  | cons item items ih =>
    simp only [List.mapM_cons, bind_eq_ok, pure_eq_ok] at h
    obtain ⟨first, -, rest, hrest, rfl⟩ := h
    rw [List.length_cons, List.length_cons, ih hrest]

/-- What an output that is read is. -/
theorem readOutput_ok {x : Json} (h : readOutput x = .ok output) :
    (1 ≤ output.analysis.length ∧ output.analysis.length ≤ 6000) ∧
      ∀ r ∈ output.repositories, r.stars < 2 ^ 53 ∧ r.forks < 2 ^ 53 ∧ r.openIssues < 2 ^ 53 := by
  simp only [readOutput, bind_eq_ok, pure_eq_ok, JsError.throwIf_eq_ok] at h
  obtain ⟨fields, -, analysis, -, hlength, items, -, -, rows, hrows, rfl⟩ := h
  refine ⟨by simp only; omega, fun r hr => ?_⟩
  obtain ⟨x, -, hx⟩ := mem_of_mapM_ok hrows r hr
  exact readWorkerRow_ok hx

/-- There are one to three rows. -/
theorem parseOutput_count (h : parseOutput readNumber content = .ok output) :
    1 ≤ output.repositories.length ∧ output.repositories.length ≤ 3 := by
  unfold parseOutput at h
  split at h
  · cases h
  · simp only [readOutput, bind_eq_ok, pure_eq_ok, JsError.throwIf_eq_ok] at h
    obtain ⟨fields, -, analysis, -, -, items, -, hitems, rows, hrows, rfl⟩ := h
    have hlength := length_of_mapM_ok hrows
    simp only
    omega

theorem parseOutput_ok (h : parseOutput readNumber content = .ok output) :
    (1 ≤ output.analysis.length ∧ output.analysis.length ≤ 6000) ∧
      ∀ r ∈ output.repositories, r.stars < 2 ^ 53 ∧ r.forks < 2 ^ 53 ∧ r.openIssues < 2 ^ 53 := by
  unfold parseOutput at h
  split at h
  · cases h
  · exact readOutput_ok h

/-- What covering is. -/
theorem covers_iff : output.covers repos = true ↔
    output.repositories.length = repos.length ∧ (output.repositories.map WorkerRow.repo).Nodup ∧
      ∀ r ∈ output.repositories, r.repo ∈ repos := by
  simp only [WorkerOutput.covers, Bool.and_eq_true, decide_eq_true_eq, List.all_eq_true,
    List.contains_iff_mem, List.forall_mem_map, and_assoc]
  refine and_congr_right fun hlength => and_congr_left fun _ => ?_
  rw [← List.dedup_eq_self]
  constructor
  · intro h
    exact (List.dedup_sublist _).eq_of_length (by rw [h, List.length_map, hlength])
  · intro h
    rw [h, List.length_map, hlength]

/-! ### How long a summary is -/

theorem length_decimal {n : ℕ} (h : n < 2 ^ 53) : (decimal n).length ≤ 16 := by
  rw [decimal, List.length_map]
  exact (Nat.length_toDigits_le_iff (by decide) (by decide)).2 (by omega)

/-- The line of a row of a repository with a short name. -/
theorem length_line {r : WorkerRow} (hrepo : r.repo.length ≤ 200)
    (hcounts : r.stars < 2 ^ 53 ∧ r.forks < 2 ^ 53 ∧ r.openIssues < 2 ^ 53) :
    r.line.length ≤ 300 := by
  have hstars := length_decimal hcounts.1
  have hforks := length_decimal hcounts.2.1
  have hissues := length_decimal hcounts.2.2
  have h1 : (js " | stars=").length = 9 := rfl
  have h2 : (js " | forks=").length = 9 := rfl
  have h3 : (js " | openIssues=").length = 14 := rfl
  simp only [WorkerRow.line, List.length_append, h1, h2, h3]
  omega

theorem length_sourceLine {repo : JsString} (h : repo.length ≤ 200) :
    (sourceLine repo).length ≤ 300 := by
  have h1 : (js "Source: ").length = 8 := rfl
  have h2 : (js "https://api.github.com/repos/").length = 29 := rfl
  simp only [sourceLine, Evidence.sourceUrl, List.length_append, h1, h2]
  omega

/-- The length of a text of lines. -/
theorem length_joinLines {lines : List JsString} {n : ℕ} (h : ∀ line ∈ lines, line.length ≤ n) :
    (joinLines lines).length ≤ lines.length * (n + 1) := by
  induction lines with
  | nil => exact Nat.zero_le _
  | cons line lines ih =>
    have hline := h line List.mem_cons_self
    have hrest := ih fun l hl => h l (List.mem_cons_of_mem _ hl)
    cases lines with
    | nil => simpa [joinLines] using hline.trans (Nat.le_succ n)
    | cons next lines =>
      rw [joinLines] at hrest ⊢
      rw [join_cons, List.length_append, List.length_cons, List.length_cons]
      rw [Nat.succ_mul]
      omega

/-- **The length of a summary.**  It fits in every limit on summaries. -/
theorem length_summary (h : parseOutput readNumber content = .ok output)
    (hcovers : output.covers repos = true) (hcount : repos.length ≤ 3)
    (hrepos : ∀ repo ∈ repos, repo.length ≤ 200) :
    1 ≤ (output.summary repos).length ∧ (output.summary repos).length ≤ 12000 := by
  obtain ⟨hanalysis, hcounts⟩ := parseOutput_ok h
  obtain ⟨hlength, -, hnames⟩ := covers_iff.1 hcovers
  have hrest : ∀ line ∈ [] :: (output.repositories.map WorkerRow.line ++
      [] :: repos.map sourceLine), line.length ≤ 300 := by
    intro line hline
    rcases List.mem_cons.1 hline with rfl | hline
    · exact Nat.zero_le _
    · rcases List.mem_append.1 hline with hline | hline
      · obtain ⟨r, hr, rfl⟩ := List.mem_map.1 hline
        exact length_line (hrepos _ (hnames r hr)) (hcounts r hr)
      · rcases List.mem_cons.1 hline with rfl | hline
        · exact Nat.zero_le _
        · obtain ⟨repo, hrepo, rfl⟩ := List.mem_map.1 hline
          exact length_sourceLine (hrepos repo hrepo)
  have htotal := length_joinLines hrest
  simp only [List.length_cons, List.length_append, List.length_map] at htotal
  rw [WorkerOutput.summary, joinLines, join_cons, List.length_append, List.length_cons]
  rw [joinLines] at htotal
  constructor
  · omega
  · have hsix : (output.repositories.length + (repos.length + 1) + 1) * (300 + 1) ≤ 8 * 301 :=
      Nat.mul_le_mul_right _ (by omega)
    omega

end Format

end Runs

end Obolos
