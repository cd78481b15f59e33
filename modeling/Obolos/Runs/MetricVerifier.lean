import Obolos.Runs.WorkerReport
import Mathlib.Data.List.Perm.Subperm

/-!
# The metric verifier

`verifyMetricReport` reads the rows of metrics in a report and compares them with its evidence.  Its
check of the claims looks at everything else the report says, also at the names of repositories in
its title and in the lines of its sources.

`metrics_verified_iff` : a truthful report of the worker passes all checks exactly if no claim is
found in these names.
-/

namespace Obolos

namespace Runs

open Json JsString
open Obolos.Circle (isAlphanumeric)

/-! ### The rows of a report -/

/-- `[A-Za-z0-9][A-Za-z0-9-]{0,38}\/[A-Za-z0-9_.-]{1,100}` -/
def isMetricRepo (repo : JsString) : Bool :=
  let owner := (Evidence.splitRepo repo).1
  let name := (Evidence.splitRepo repo).2
  (owner.take 1).all isAlphanumeric && decide (1 ≤ owner.length ∧ owner.length ≤ 39) &&
    owner.all (fun c => isAlphanumeric c || c == 45) &&
    decide (1 ≤ name.length ∧ name.length ≤ 100) && name.all Evidence.isNameUnit

/-- The groups of a row. -/
structure MetricRow where
  repo : JsString
  stars : JsString
  forks : JsString
  openIssues : JsString

/-- `(\d+)`, and what follows -/
def takeDigits (s : JsString) : Option (JsString × JsString) :=
  match s.takeWhile isDigit with
  | [] => none
  | digits => some (digits, s.dropWhile isDigit)

/-- `pattern.exec(line)` -/
def metricRow (line : JsString) : Option MetricRow := do
  let repo := line.takeWhile (· != 32)
  if isMetricRepo repo = false then none
  let rest ← dropWord (js " | stars=") (line.dropWhile (· != 32))
  let (stars, rest) ← takeDigits rest
  let rest ← dropWord (js " | forks=") rest
  let (forks, rest) ← takeDigits rest
  let rest ← dropWord (js " | openIssues=") rest
  let (openIssues, rest) ← takeDigits rest
  if rest ≠ [] then none
  return { repo, stars, forks, openIssues }

/-! ### The checks -/

section Verifier

variable (P : Platform)

/-- `Number(digits) === q` -/
def isNumber (digits : JsString) (q : ℚ) : Bool :=
  match readDecimals 0 digits with
  | none => false
  -- a number beyond the doubles is `Infinity`
  | some n => decide (n < (2 ^ 54 - 1) * 2 ^ 970) && decide (P.arithmetic.round n = q)

/-- Whether the claims have exactly one row for a record, with its metrics. -/
def matchesRecord (claims : List MetricRow) (e : RepoEvidence) : Bool :=
  match claims.filter fun c => c.repo = e.repo with
  | [c] => isNumber P c.stars e.stars && isNumber P c.forks e.forks &&
      isNumber P c.openIssues e.openIssues
  | _ => false

/-- Whether a record was fetched within the last hour. -/
def isFresh (now : ℤ) (e : RepoEvidence) : Bool :=
  match P.host.dateParse e.fetchedAt with
  | none => false
  | some time => decide (time ≤ now + 60000) && decide (now - 3600000 ≤ time)

/-- The check `Evidence integrity and freshness`. -/
def isIntact (now : ℤ) (evidence : List RepoEvidence) : Bool :=
  decide ((evidence.map RepoEvidence.repo).dedup.length = evidence.length) &&
    decide (0 < evidence.length) &&
    evidence.all fun e => decide (e.sourceUrl = Evidence.sourceUrl e.repo) && isFresh P now e

/-- The check `Claim scope`. -/
def inScope (claims : List MetricRow) (evidence : List RepoEvidence) (extra : JsString) : Bool :=
  decide (claims.length = evidence.length) &&
    (claims.all fun c => (evidence.map RepoEvidence.repo).contains c.repo) && !hasMetricClaim extra

/-- The rows in a summary. -/
def metricRows (summary : JsString) : List MetricRow :=
  (splitLines summary).filterMap fun line => metricRow (trim line)

/-- The lines of a summary that are no rows. -/
def otherLines (summary : JsString) : List JsString :=
  (splitLines summary).filter fun line => (metricRow (trim line)).isNone

/-- `verifyMetricReport(report, now)`, for a report with this recommendation. -/
def verifyMetricReport (report : Report) (recommendation : JsString) (now : ℤ) : List Check :=
  let claims := metricRows report.summary
  let extra := joinLines (report.title :: recommendation :: otherLines report.summary)
  report.evidence.map (fun e => ⟨js "Metrics: " ++ e.repo, matchesRecord P claims e,
    js "Exactly one stars, forks and openIssues row must match the submitted evidence."⟩) ++
  [⟨js "Evidence integrity and freshness", isIntact P now report.evidence,
    js "Unique GitHub evidence must be at most one hour old; its provenance is checked separately by paid delivery."⟩,
  ⟨js "Claim scope", inScope claims report.evidence extra,
    js "Only canonical metric rows are certified against evidence. Free-text judgments are not certified; extra numeric metric claims are rejected."⟩]

theorem verifyMetricReport_all (report : Report) (recommendation : JsString) (now : ℤ) :
    (verifyMetricReport P report recommendation now).all Check.passed =
      (report.evidence.all (matchesRecord P (metricRows report.summary)) &&
        (isIntact P now report.evidence && inScope (metricRows report.summary) report.evidence
          (joinLines (report.title :: recommendation :: otherLines report.summary)))) := by
  rw [verifyMetricReport, List.all_append, List.all_map]
  simp only [List.all_cons, List.all_nil, Bool.and_true]
  rfl

end Verifier

/-- The recommendation of every report. -/
def recommendation : JsString := js "Use these observations as a starting point. Validate framework suitability against your project requirements; popularity is not a quality guarantee."

/-- The report that `draftReport` makes of a summary. -/
def Run.draft (run : Run) (summary createdAt : JsString) : Report where
  title := run.title
  summary := summary
  evidence := run.evidence
  createdAt := createdAt
  checks := []
  verified := false

/-- The title of a run on these repositories. -/
def title (repos : List JsString) : JsString :=
  js "Compare " ++ List.intercalate (js ", ") (repos.map repoName)

/-- The stage `report` makes this report of what the worker answers. -/
theorem draftReport_eq (C : Context) : draftReport C = (do
    let run ← Method.self
    let summary ← Method.await (.generateReport run.id run.evidence)
    let createdAt ← Method.await .now
    Method.modify fun run => { run with
      report := some (run.draft summary (C.isoString createdAt)), stage := .verification }
    log C .worker .success (js "Report drafted")
      (js "Model-generated analysis grounded in " ++ C.number run.evidence.length ++
        js " purchased records. Source-integrity and structural checks are still pending.")) := rfl

/-! ### Reading a row -/

section Rows

variable {repo : JsString} {r : WorkerRow} {line : JsString}

/-- The letters of the name of a repository. -/
def isRepoUnit (c : UInt16) : Bool := Evidence.isNameUnit c || c == 47

theorem isMetricRepo_units (h : isMetricRepo repo = true) :
    repo ≠ [] ∧ ∀ c ∈ repo, isRepoUnit c = true := by
  simp only [isMetricRepo, Bool.and_eq_true, decide_eq_true_eq, List.all_eq_true] at h
  obtain ⟨⟨⟨⟨-, hlow, -⟩, howner⟩, hname⟩, hunits⟩ := h
  have hsplit : repo = (Evidence.splitRepo repo).1 ++ repo.dropWhile (· != 47) :=
    List.takeWhile_append_dropWhile.symm
  have hrest : ∀ c ∈ repo.dropWhile (· != 47), isRepoUnit c = true := by
    intro c hc
    have hdrop : (Evidence.splitRepo repo).2 = (repo.dropWhile (· != 47)).drop 1 := rfl
    cases hd : repo.dropWhile (· != 47) with
    | nil => rw [hd] at hc; exact absurd hc List.not_mem_nil
    | cons d rest =>
      have hslash : (d != 47) = false := by
        have hhead := List.head?_dropWhile_not (· != 47) repo
        rw [hd] at hhead
        simpa using hhead
      rw [hd] at hc hdrop
      rcases List.mem_cons.1 hc with rfl | hc
      · rw [isRepoUnit, Bool.or_eq_true]
        exact Or.inr (by simpa using hslash)
      · rw [isRepoUnit, hunits c (hdrop ▸ hc), Bool.true_or]
  constructor
  · rintro rfl
    exact absurd hlow (by decide)
  · intro c hc
    rw [hsplit] at hc
    rcases List.mem_append.1 hc with hc | hc
    · have hunit := howner c hc
      rw [isRepoUnit, Evidence.isNameUnit]
      rw [Bool.or_eq_true] at hunit
      rcases hunit with hunit | hunit <;> simp [hunit]
    · exact hrest c hc

theorem repoUnit_spec {c : UInt16} (h : isRepoUnit c = true) :
    JsString.isSpace c = false ∧ c ≠ 32 ∧ c ≠ 10 ∧ c ≠ 13 := by
  have hsmall : c ≤ 122 := by
    simp only [isRepoUnit, Evidence.isNameUnit, isAlphanumeric, Bool.or_eq_true, Bool.and_eq_true,
      decide_eq_true_eq, beq_iff_eq, UInt16.le_iff_toNat_le, ← UInt16.toNat_inj] at h ⊢
    have hvalues : (57 : UInt16).toNat = 57 ∧ (90 : UInt16).toNat = 90 ∧
        (122 : UInt16).toNat = 122 ∧ (95 : UInt16).toNat = 95 ∧ (46 : UInt16).toNat = 46 ∧
        (45 : UInt16).toNat = 45 ∧ (47 : UInt16).toNat = 47 := by decide
    omega
  have hne : ∀ d : UInt16, isRepoUnit d = false → c ≠ d := by
    rintro d hd rfl
    rw [h] at hd
    cases hd
  refine ⟨?_, hne 32 (by decide), hne 10 (by decide), hne 13 (by decide)⟩
  rw [JsString.isSpace, Bool.or_eq_false_iff]
  constructor
  · rw [← Bool.not_eq_true, List.contains_iff_mem]
    intro hmem
    have hspace : ([9, 10, 11, 12, 13, 32, 0xa0, 0x1680, 0x2028, 0x2029, 0x202f, 0x205f,
        0x3000, 0xfeff] : List UInt16).all (fun d => !isRepoUnit d) = true := by
      decide +kernel
    exact hne c (by simpa using List.all_eq_true.1 hspace c hmem) rfl
  · rw [Bool.and_eq_false_iff]
    refine Or.inl (decide_eq_false ?_)
    rw [UInt16.le_iff_toNat_le] at hsmall ⊢
    have hvalues : (122 : UInt16).toNat = 122 ∧ (0x2000 : UInt16).toNat = 0x2000 := by decide
    omega

theorem takeDigits_decimal (n : ℕ) {rest : JsString}
    (h : ∀ c, rest.head? = some c → isDigit c = false) :
    takeDigits (decimal n ++ rest) = some (decimal n, rest) := by
  have hdigits : ∀ c ∈ decimal n, isDigit c = true := fun c hc => decimal_digits hc
  have hstop : rest.takeWhile isDigit = [] ∧ rest.dropWhile isDigit = rest := by
    cases rest with
    | nil => exact ⟨rfl, rfl⟩
    | cons c rest => simp [h c rfl]
  unfold takeDigits
  rw [List.takeWhile_append_of_pos hdigits, List.dropWhile_append_of_pos hdigits, hstop.1, hstop.2,
    List.append_nil]
  split
  · rename_i hnil
    exact absurd hnil (decimal_ne_nil n)
  · rfl

theorem dropWord_spec {word s rest : JsString} (h : dropWord word s = some rest) :
    s = word ++ rest := by
  induction word generalizing s with
  | nil => exact Option.some.inj h
  | cons c word ih =>
    cases s with
    | nil => cases h
    | cons d s =>
      rw [dropWord] at h
      split_ifs at h with hc
      rw [ih h, hc, List.cons_append]

/-- A test before the rest of a reader. -/
theorem noneIf_eq_some {α β : Type} {bad : Prop} [Decidable bad] {f : α → Option β} {x : Option β}
    {y : β} : (if bad then none.bind f else x) = some y ↔ ¬ bad ∧ x = some y := by
  by_cases h : bad <;> simp [h]

/-- What was read of a row. -/
theorem metricRow_eq_some {row : MetricRow} :
    metricRow line = some row ↔ isMetricRepo row.repo = true ∧
      ∃ a b c, line.takeWhile (· != 32) = row.repo ∧
        dropWord (js " | stars=") (line.dropWhile (· != 32)) = some a ∧
        (∃ a', takeDigits a = some (row.stars, a') ∧ dropWord (js " | forks=") a' = some b) ∧
        (∃ b', takeDigits b = some (row.forks, b') ∧ dropWord (js " | openIssues=") b' = some c) ∧
        takeDigits c = some (row.openIssues, []) := by
  unfold metricRow
  simp only [Option.bind_eq_bind, Option.pure_def, noneIf_eq_some, Option.bind_eq_some_iff,
    Bool.not_eq_false, ne_eq, not_not]
  constructor
  · rintro ⟨hrepo, a, ha, ⟨stars, a'⟩, hstars, b, hb, ⟨forks, b'⟩, hforks, c, hc, ⟨issues, c'⟩,
      hissues, hend, heq⟩
    cases Option.some.inj heq
    cases hend
    exact ⟨hrepo, a, b, c, rfl, ha, ⟨a', hstars, hb⟩, ⟨b', hforks, hc⟩, hissues⟩
  · rintro ⟨hrepo, a, b, c, hname, ha, ⟨a', hstars, hb⟩, ⟨b', hforks, hc⟩, hissues⟩
    rw [hname]
    exact ⟨hrepo, a, ha, _, hstars, b, hb, _, hforks, c, hc, _, hissues, rfl, rfl⟩

/-- The row of a line of the worker. -/
theorem metricRow_line (h : isMetricRepo r.repo = true) :
    metricRow r.line = some ⟨r.repo, decimal r.stars, decimal r.forks, decimal r.openIssues⟩ := by
  obtain ⟨-, hunits⟩ := isMetricRepo_units h
  have hname : ∀ c ∈ r.repo, (c != 32) = true := fun c hc =>
    bne_iff_ne.2 (repoUnit_spec (hunits c hc)).2.1
  have hspace : ∀ (t : JsString) c, (32 :: t : JsString).head? = some c → isDigit c = false := by
    intro t c hc
    cases hc
    rfl
  have hstars := takeDigits_decimal r.stars (hspace (js "| forks=" ++ (decimal r.forks ++
    (js " | openIssues=" ++ decimal r.openIssues))))
  have hforks := takeDigits_decimal r.forks (hspace (js "| openIssues=" ++ decimal r.openIssues))
  have hnil : ∀ c, ([] : JsString).head? = some c → isDigit c = false := fun c hc => by cases hc
  have hissues := takeDigits_decimal r.openIssues hnil
  rw [List.append_nil] at hissues
  have hstart : (r.line.takeWhile (· != 32)) = r.repo ∧ r.line.dropWhile (· != 32) =
      js " | stars=" ++ (decimal r.stars ++ (js " | forks=" ++ (decimal r.forks ++
        (js " | openIssues=" ++ decimal r.openIssues)))) := by
    rw [WorkerRow.line, List.takeWhile_append_of_pos hname, List.dropWhile_append_of_pos hname]
    exact ⟨by simp [js, charUnits], rfl⟩
  refine metricRow_eq_some.2 ⟨h, _, _, _, hstart.1, ?_, ⟨_, hstars, ?_⟩, ⟨_, hforks, ?_⟩, hissues⟩
  · rw [hstart.2, dropWord_append]
    rfl
  · exact dropWord_append (js " | forks=") _
  · exact dropWord_append (js " | openIssues=") _

/-- A row is a claim. -/
theorem hasMetricClaim_row {row : MetricRow} (h : metricRow (trim line) = some row) :
    hasMetricClaim line = true := by
  obtain ⟨-, a, b, c, -, ha, ⟨a', hdigits, -⟩, -⟩ := metricRow_eq_some.1 h
  refine search_of_infixOf extends_claimAt (trim_infixOf line) ?_
  have hfirst : ∃ d rest, a = d :: rest ∧ isDigit d = true := by
    unfold takeDigits at hdigits
    cases a with
    | nil => cases hdigits
    | cons d rest =>
      refine ⟨d, rest, rfl, ?_⟩
      by_contra hd
      rw [List.takeWhile_cons_of_neg hd] at hdigits
      cases hdigits
  obtain ⟨d, rest, rfl, hd⟩ := hfirst
  have hline : trim line = ((trim line).takeWhile (· != 32) ++ js " | ") ++
      (js "stars=" ++ d :: rest) := by
    have hsplit := (List.takeWhile_append_dropWhile (p := (· != 32)) (l := trim line)).symm
    rw [dropWord_spec ha] at hsplit
    exact hsplit.trans (by rw [List.append_assoc]; rfl)
  rw [hline]
  exact hasMetricClaim_stars _ rest hd

theorem trim_sourceLine (h : isMetricRepo repo = true) : trim (sourceLine repo) = sourceLine repo := by
  obtain ⟨hne, hunits⟩ := isMetricRepo_units h
  refine trim_eq (fun c hc => ?_) (fun c hc => ?_)
  · have hhead : (sourceLine repo).head? = some 83 := rfl
    rw [hhead] at hc
    cases hc
    rfl
  · rw [sourceLine, Evidence.sourceUrl, ← List.append_assoc, List.getLast?_append_of_ne_nil _ hne] at hc
    exact (repoUnit_spec (hunits c (List.mem_of_getLast? hc))).1

theorem metricRow_sourceLine (h : isMetricRepo repo = true) :
    metricRow (trim (sourceLine repo)) = none := by
  rw [trim_sourceLine h, Option.eq_none_iff_forall_ne_some]
  intro row hrow
  obtain ⟨hrepo, a, b, c, hname, -⟩ := metricRow_eq_some.1 hrow
  have hsource : (sourceLine repo).takeWhile (· != 32) = js "Source:" := rfl
  rw [← hname, hsource] at hrepo
  exact absurd hrepo (by decide)

theorem trim_line (h : isMetricRepo r.repo = true) : trim r.line = r.line := by
  obtain ⟨hne, hunits⟩ := isMetricRepo_units h
  refine trim_eq (fun c hc => ?_) (fun c hc => ?_)
  · rw [WorkerRow.line, List.head?_append_of_ne_nil _ hne] at hc
    exact (repoUnit_spec (hunits c (List.mem_of_mem_head? hc))).1
  · have hlast : r.line.getLast? = (decimal r.openIssues).getLast? := by
      simp only [WorkerRow.line, ← List.append_assoc]
      rw [List.getLast?_append_of_ne_nil _ (decimal_ne_nil _)]
    rw [hlast] at hc
    have hdigit : isRepoUnit c = true := by
      have hd := decimal_digits (List.mem_of_getLast? hc)
      rw [isDigit] at hd
      simp [isRepoUnit, Evidence.isNameUnit, isAlphanumeric, hd]
    exact (repoUnit_spec hdigit).1

theorem hasMetricClaim_lines {lines : List JsString} (hne : lines ≠ []) :
    hasMetricClaim (joinLines lines) = lines.any hasMetricClaim := search_lines inLine_claimAt hne

/-- The groups of the line of a row. -/
def WorkerRow.row (r : WorkerRow) : MetricRow :=
  ⟨r.repo, decimal r.stars, decimal r.forks, decimal r.openIssues⟩

theorem line_units (h : isMetricRepo r.repo = true) : ∀ c ∈ r.line, c ≠ 10 ∧ c ≠ 13 := by
  have hdecimal : ∀ {n : ℕ}, ∀ c ∈ decimal n, c ≠ 10 ∧ c ≠ 13 := by
    intro n c hc
    have hdigit := decimal_digits hc
    refine ⟨?_, ?_⟩ <;> (rintro rfl; exact absurd hdigit (by decide))
  have hword : ∀ word ∈ [js " | stars=", js " | forks=", js " | openIssues="], ∀ c ∈ word,
      c ≠ 10 ∧ c ≠ 13 := by
    intro word hword c hc
    have hall : [js " | stars=", js " | forks=", js " | openIssues="].all
        (fun word => word.all fun c => decide (c ≠ 10 ∧ c ≠ 13)) = true := by decide +kernel
    exact of_decide_eq_true (List.all_eq_true.1 (List.all_eq_true.1 hall word hword) c hc)
  intro c hc
  simp only [WorkerRow.line, List.mem_append] at hc
  rcases hc with hc | hc | hc | hc | hc | hc | hc
  · exact (repoUnit_spec ((isMetricRepo_units h).2 c hc)).2.2
  · exact hword _ (by simp) c hc
  · exact hdecimal c hc
  · exact hword _ (by simp) c hc
  · exact hdecimal c hc
  · exact hword _ (by simp) c hc
  · exact hdecimal c hc

theorem sourceLine_units (h : isMetricRepo repo = true) :
    ∀ c ∈ sourceLine repo, c ≠ 10 ∧ c ≠ 13 := by
  have hprefix : ∀ c ∈ js "Source: https://api.github.com/repos/", c ≠ 10 ∧ c ≠ 13 := by
    have hall : (js "Source: https://api.github.com/repos/").all
        (fun c => decide (c ≠ 10 ∧ c ≠ 13)) = true := by decide +kernel
    exact fun c hc => of_decide_eq_true (List.all_eq_true.1 hall c hc)
  have hline : sourceLine repo = js "Source: https://api.github.com/repos/" ++ repo := rfl
  intro c hc
  rw [hline] at hc
  rcases List.mem_append.1 hc with hc | hc
  · exact hprefix c hc
  · exact (repoUnit_spec ((isMetricRepo_units h).2 c hc)).2.2

end Rows

/-! ### Reading a report -/

section Summary

variable {output : WorkerOutput} {repos : List JsString}

/-- The lines of a summary. -/
theorem lines_summary (hrows : ∀ r ∈ output.repositories, isMetricRepo r.repo = true)
    (hrepos : ∀ repo ∈ repos, isMetricRepo repo = true) :
    ∃ lines, splitLines (output.summary repos) =
        lines ++ ([] :: (output.repositories.map WorkerRow.line ++ [] :: repos.map sourceLine)) ∧
      ∀ line ∈ lines, line <:+: output.analysis := by
  have hrest : ∀ line ∈ [] :: (output.repositories.map WorkerRow.line ++
      [] :: repos.map sourceLine), ∀ c ∈ line, c ≠ 10 ∧ c ≠ 13 := by
    intro line hline
    rcases List.mem_cons.1 hline with rfl | hline
    · exact fun c hc => absurd hc List.not_mem_nil
    · rcases List.mem_append.1 hline with hline | hline
      · obtain ⟨r, hr, rfl⟩ := List.mem_map.1 hline
        exact line_units (hrows r hr)
      · rcases List.mem_cons.1 hline with rfl | hline
        · exact fun c hc => absurd hc List.not_mem_nil
        · obtain ⟨repo, hrepo, rfl⟩ := List.mem_map.1 hline
          exact sourceLine_units (hrepos repo hrepo)
  obtain ⟨line, lines, heq, hline, hlines, -⟩ := splitLines_newline output.analysis
    (List.intercalate [10] ([] :: (output.repositories.map WorkerRow.line ++
      [] :: repos.map sourceLine)))
  rw [splitLines_join (List.cons_ne_nil _ _) hrest] at heq
  refine ⟨line :: lines, by rw [WorkerOutput.summary, joinLines, join_cons, heq], fun l hl => ?_⟩
  rcases List.mem_cons.1 hl with rfl | hl
  · exact hline.isInfix
  · exact hlines l hl

/-- The rows that are read of a summary are those of the worker, and the claims in the rest of it
are those in the names of the sources. -/
theorem claims_summary (hclaim : hasMetricClaim output.analysis = false)
    (hrows : ∀ r ∈ output.repositories, isMetricRepo r.repo = true)
    (hrepos : ∀ repo ∈ repos, isMetricRepo repo = true) :
    metricRows (output.summary repos) = output.repositories.map WorkerRow.row ∧
      (otherLines (output.summary repos)).any hasMetricClaim = repos.any hasMetricClaim := by
  obtain ⟨lines, heq, hlines⟩ := lines_summary hrows hrepos
  -- Every line of the analysis is part of it, so none of them makes a claim.
  have hquiet : ∀ line ∈ lines, hasMetricClaim line = false := by
    intro line hline
    by_contra hne
    rw [Bool.not_eq_false] at hne
    have hwhole := search_of_infixOf extends_claimAt (hlines line hline) hne
    exact absurd (hclaim.symm.trans hwhole) Bool.false_ne_true
  have hnone : ∀ line ∈ lines, metricRow (trim line) = none := by
    intro line hline
    cases hrow : metricRow (trim line) with
    | none => rfl
    | some row =>
      exact absurd ((hquiet line hline).symm.trans (hasMetricClaim_row hrow)) Bool.false_ne_true
  have hempty : metricRow (trim []) = none := rfl
  have hline : ∀ r ∈ output.repositories, metricRow (trim r.line) = some r.row := fun r hr => by
    rw [trim_line (hrows r hr), metricRow_line (hrows r hr)]
    rfl
  have hsource : ∀ repo ∈ repos, metricRow (trim (sourceLine repo)) = none := fun repo hrepo =>
    metricRow_sourceLine (hrepos repo hrepo)
  have hsources : repos.filterMap ((fun line => metricRow (trim line)) ∘ sourceLine) = [] :=
    List.filterMap_eq_nil_iff.2 hsource
  rw [metricRows, otherLines, heq]
  constructor
  · rw [List.filterMap_append, List.filterMap_cons_none (f := fun line => metricRow (trim line)) hempty,
      List.filterMap_append, List.filterMap_cons_none (f := fun line => metricRow (trim line)) hempty,
      List.filterMap_eq_nil_iff.2 hnone, List.filterMap_map, List.filterMap_map, hsources,
      List.append_nil, List.nil_append, ← List.filterMap_eq_map]
    exact List.filterMap_congr hline
  · have hfirst : (lines.any fun line => (metricRow (trim line)).isNone && hasMetricClaim line) =
        false := by
      refine List.any_eq_false.2 fun line hl => ?_
      rw [hquiet line hl, Bool.and_false]
      exact Bool.false_ne_true
    have hmiddle : ((output.repositories.map WorkerRow.line).any fun line =>
        (metricRow (trim line)).isNone && hasMetricClaim line) = false := by
      refine List.any_eq_false.2 fun line hl => ?_
      obtain ⟨r, hr, rfl⟩ := List.mem_map.1 hl
      rw [hline r hr]
      exact Bool.false_ne_true
    -- A source line is no metric row, and it makes a claim where the name does.
    have hlast : ((repos.map sourceLine).any fun line =>
        (metricRow (trim line)).isNone && hasMetricClaim line) = repos.any hasMetricClaim := by
      rw [List.any_map, Bool.eq_iff_iff, List.any_eq_true, List.any_eq_true]
      refine exists_congr fun repo => and_congr_right fun hrepo => ?_
      rw [Function.comp_apply, hsource repo hrepo, hasMetricClaim_sourceLine]
      exact Iff.rfl
    have hnothing : ((metricRow (trim [])).isNone && hasMetricClaim []) = false := rfl
    rw [List.any_filter, List.any_append, List.any_cons, List.any_append, List.any_cons, hfirst,
      hmiddle, hlast, hnothing, Bool.false_or, Bool.false_or, Bool.false_or, Bool.false_or]

end Summary

/-! ### Truthful reports -/

section Truthful

variable {P : Platform} {run : Run} {content summary createdAt : JsString} {now : ℤ}
  {output : WorkerOutput}

/-- The rows of the worker are those of the evidence. -/
def WorkerOutput.Truthful (output : WorkerOutput) (evidence : List RepoEvidence) : Prop :=
  ∀ r ∈ output.repositories, ∀ e ∈ evidence, r.repo = e.repo →
    e.stars = r.stars ∧ e.forks = r.forks ∧ e.openIssues = r.openIssues

theorem isNumber_decimal {n : ℕ} (h : n < 2 ^ 53) : isNumber P (decimal n) n = true := by
  have hround : P.arithmetic.round ((n : ℤ) : ℚ) = ((n : ℤ) : ℚ) :=
    P.arithmetic.round_int n (by omega) (by omega)
  have hlarge : 2 ^ 53 < (2 ^ 54 - 1) * 2 ^ 970 :=
    lt_of_lt_of_le (by decide) (Nat.le_mul_of_pos_right _ (pow_pos two_pos 970))
  rw [isNumber, readDecimals_decimal]
  simp only [Bool.and_eq_true, decide_eq_true_eq]
  exact ⟨h.trans hlarge, by simpa using hround⟩

/-- The only item with a key. -/
theorem filter_key {α β : Type} [DecidableEq β] {f : α → β} {l : List α} (h : (l.map f).Nodup)
    {a : α} (ha : a ∈ l) : (l.filter fun x => f x = f a) = [a] := by
  induction l with
  | nil => exact absurd ha List.not_mem_nil
  | cons x l ih =>
    rw [List.map_cons, List.nodup_cons] at h
    have hother : ∀ y ∈ l, f y ≠ f x := fun y hy he => h.1 (he ▸ List.mem_map_of_mem hy)
    rcases List.mem_cons.1 ha with rfl | ha
    · rw [List.filter_cons_of_pos (by simp), List.filter_eq_nil_iff.2]
      intro y hy
      simpa using hother y hy
    · rw [List.filter_cons_of_neg (by simpa using (hother a ha).symm), ih h.2 ha]

/-- The names of the evidence are the repositories. -/
theorem Run.covered_perm (h : run.covered run.evidence = true) :
    (run.evidence.map RepoEvidence.repo).Perm run.repos ∧
      (run.evidence.map RepoEvidence.repo).Nodup := by
  simp only [Run.covered, Bool.and_eq_true, decide_eq_true_eq, List.all_eq_true] at h
  obtain ⟨⟨hlength, hmem⟩, hdedup⟩ := h
  have hnodup : (run.evidence.map RepoEvidence.repo).Nodup := by
    rw [← List.dedup_eq_self]
    exact (List.dedup_sublist _).eq_of_length (by rw [hdedup, List.length_map, hlength])
  refine ⟨(List.subperm_of_subset hnodup fun repo hrepo => ?_).perm_of_length_le ?_, hnodup⟩
  · obtain ⟨e, he, rfl⟩ := List.mem_map.1 hrepo
    exact hmem e he
  · rw [List.length_map, hlength]

/-- There is one row for each record. -/
theorem matchesRecord_row {evidence : List RepoEvidence}
    (hcounts : ∀ r ∈ output.repositories, r.stars < 2 ^ 53 ∧ r.forks < 2 ^ 53 ∧ r.openIssues < 2 ^ 53)
    (hcovers : output.covers (evidence.map RepoEvidence.repo) = true)
    (htrue : output.Truthful evidence) {e : RepoEvidence} (he : e ∈ evidence) :
    matchesRecord P (output.repositories.map WorkerRow.row) e = true := by
  obtain ⟨hlength, hnodup, hnames⟩ := covers_iff.1 hcovers
  have hperm : (output.repositories.map WorkerRow.repo).Perm (evidence.map RepoEvidence.repo) := by
    refine (List.subperm_of_subset hnodup fun repo hrepo => ?_).perm_of_length_le ?_
    · obtain ⟨r, hr, rfl⟩ := List.mem_map.1 hrepo
      exact hnames r hr
    · rw [List.length_map, List.length_map, hlength, List.length_map]
  obtain ⟨r, hr, hrepo⟩ := List.mem_map.1 (hperm.mem_iff.2 (List.mem_map_of_mem he))
  have hfilter : (output.repositories.map WorkerRow.row).filter (fun c => c.repo = e.repo) =
      [r.row] := by
    rw [List.filter_map, ← hrepo]
    exact congrArg (List.map WorkerRow.row) (filter_key hnodup hr)
  obtain ⟨hstars, hforks, hissues⟩ := htrue r hr e he hrepo
  obtain ⟨hs, hf, hi⟩ := hcounts r hr
  rw [matchesRecord, hfilter, hstars, hforks, hissues]
  simp only [WorkerRow.row, isNumber_decimal hs, isNumber_decimal hf, isNumber_decimal hi,
    Bool.and_self]

/-- **What the metric verifier accepts.**  A truthful report of the worker on fresh evidence passes
all checks exactly if no name of a repository, and not the list of their names in the title, has a
number near one of the words that claim a metric. -/
theorem metrics_verified_iff (htitle : run.title = title run.repos)
    (hcovered : run.covered run.evidence = true) (hnames : ∀ repo ∈ run.repos, isMetricRepo repo = true)
    (hurls : ∀ e ∈ run.evidence, e.sourceUrl = Evidence.sourceUrl e.repo)
    (hfresh : ∀ e ∈ run.evidence, ∃ time, P.host.dateParse e.fetchedAt = some time ∧
      now - 3600000 ≤ time ∧ time ≤ now)
    (hparse : parseOutput P.readNumber content = .ok output) (htrue : output.Truthful run.evidence)
    (hformat : formatWorkerReport P.readNumber content (run.evidence.map RepoEvidence.repo) =
      .ok summary) :
    (verifyMetricReport P (run.draft summary createdAt) recommendation now).all Check.passed = true ↔
      (∀ repo ∈ run.repos, hasMetricClaim repo = false) ∧
        hasMetricClaim (List.intercalate (js ", ") (run.repos.map repoName)) = false := by
  obtain ⟨hperm, hnodup⟩ := Run.covered_perm hcovered
  obtain ⟨output', hparse', hcovers, hclaim, rfl⟩ := formatWorkerReport_eq_ok.1 hformat
  obtain rfl := Except.ok.inj (hparse.symm.trans hparse')
  obtain ⟨-, hcounts⟩ := parseOutput_ok hparse
  obtain ⟨hlength, hrownames, hrows⟩ := covers_iff.1 hcovers
  have hvalid : ∀ repo ∈ run.evidence.map RepoEvidence.repo, isMetricRepo repo = true :=
    fun repo hrepo => hnames repo (hperm.mem_iff.1 hrepo)
  obtain ⟨hclaims, hrest⟩ := claims_summary hclaim (fun r hr => hvalid _ (hrows r hr)) hvalid
  have hmetrics : run.evidence.all (matchesRecord P (output.repositories.map WorkerRow.row)) = true :=
    List.all_eq_true.2 fun e he => matchesRecord_row hcounts hcovers htrue he
  -- Reading the evidence again, one hour back at most, finds it as it was.
  have hintact : isIntact P now run.evidence = true := by
    have hlengths := hperm.length_eq
    obtain ⟨hcount, -⟩ := parseOutput_count hparse
    rw [isIntact, List.dedup_eq_self.2 hnodup, List.length_map, decide_eq_true rfl, Bool.true_and,
      Bool.and_eq_true, decide_eq_true_eq, List.all_eq_true]
    refine ⟨by rw [List.length_map] at hlength; omega, fun e he => ?_⟩
    obtain ⟨time, hparsed, hlow, hhigh⟩ := hfresh e he
    rw [hurls e he, decide_eq_true rfl, Bool.true_and, isFresh, hparsed]
    simp only [Bool.and_eq_true, decide_eq_true_eq]
    omega
  have hscope : ∀ extra, inScope (output.repositories.map WorkerRow.row) run.evidence extra =
      !hasMetricClaim extra := by
    intro extra
    rw [inScope, List.length_map, hlength, List.length_map, decide_eq_true rfl, Bool.true_and,
      List.all_map, List.all_eq_true.2, Bool.true_and]
    exact fun r hr => List.contains_iff_mem.2 (hrows r hr)
  -- What is left are the names: in the title and, once each, in the source lines.
  have hextra : hasMetricClaim (joinLines (run.title :: recommendation ::
      otherLines (output.summary (run.evidence.map RepoEvidence.repo)))) =
        (hasMetricClaim (List.intercalate (js ", ") (run.repos.map repoName)) ||
          run.repos.any hasMetricClaim) := by
    have hrecommendation : hasMetricClaim recommendation = false := by decide +kernel
    have hnamed : (run.evidence.map RepoEvidence.repo).any hasMetricClaim =
        run.repos.any hasMetricClaim := by
      rw [Bool.eq_iff_iff, List.any_eq_true, List.any_eq_true]
      exact exists_congr fun repo => and_congr_left fun _ => hperm.mem_iff
    rw [hasMetricClaim_lines (List.cons_ne_nil _ _), List.any_cons, List.any_cons, hrecommendation,
      Bool.false_or, hrest, hnamed, htitle, title, hasMetricClaim_quiet (by decide)]
  rw [verifyMetricReport_all]
  change (run.evidence.all (matchesRecord P (metricRows (output.summary _))) &&
    (isIntact P now run.evidence && inScope (metricRows (output.summary _)) run.evidence
      (joinLines (run.title :: recommendation :: otherLines (output.summary _))))) = true ↔ _
  rw [hclaims, hmetrics, hintact, hscope, hextra, Bool.true_and, Bool.true_and, Bool.not_eq_true',
    Bool.or_eq_false_iff, and_comm, List.any_eq_false]
  simp only [Bool.not_eq_true]

end Truthful

namespace Metrics

/-- The record of a repository. -/
def record (repo : JsString) : RepoEvidence where
  repo := repo
  stars := 5
  forks := 2
  openIssues := 1
  pushedAt := js "now"
  sourceUrl := Evidence.sourceUrl repo
  fetchedAt := js "now"

/-- What the worker answers for the repository. -/
def output (repo : JsString) : WorkerOutput := ⟨js "Active.", [⟨repo, 5, 2, 1⟩]⟩

/-- The answer as a value. -/
def answer (repo : JsString) : Json :=
  .obj [(js "analysis", .str (js "Active.")), (js "repositories", .arr [.obj [(js "repo", .str repo),
    (js "stars", .num 5), (js "forks", .num 2), (js "openIssues", .num 1)]])]

/-- The answer as a text. -/
def content (repo : JsString) : JsString := stringify Platform.plain.host.numerals (answer repo)

/-- A run that has bought the record. -/
def run (repo : JsString) : Run :=
  let input : RunInput := ⟨[repo], none, none, none, none, none, none⟩
  { input.run (js "run") (js "now") (input.mandate (js "now")) with evidence := [record repo] }

theorem parse_content (repo : JsString) :
    parseOutput Platform.plain.readNumber (content repo) = .ok (output repo) := by
  have hdistinct : (answer repo).Distinct := by
    refine .obj (by simp) ?_
    simp only [List.forall_mem_cons, List.not_mem_nil, false_implies, implies_true, and_true]
    refine ⟨.str _, .arr ?_⟩
    simp only [List.forall_mem_cons, List.not_mem_nil, false_implies, implies_true, and_true]
    refine .obj (by simp) ?_
    simp only [List.forall_mem_cons, List.not_mem_nil, false_implies, implies_true, and_true]
    exact ⟨.str _, .num _, .num _, .num _⟩
  rw [parseOutput, content, parse_stringify Platform.plain.readNumber_text hdistinct rfl]
  rfl

theorem format_content (repo : JsString) :
    formatWorkerReport Platform.plain.readNumber (content repo)
      ((run repo).evidence.map RepoEvidence.repo) = .ok ((output repo).summary [repo]) := by
  have hquiet : hasMetricClaim (js "Active.") = false := by decide
  refine formatWorkerReport_eq_ok.2 ⟨output repo, parse_content repo, ?_, hquiet, rfl⟩
  refine covers_iff.2 ⟨rfl, List.nodup_singleton _, fun r hr => ?_⟩
  rw [List.mem_singleton.1 hr]
  exact List.mem_singleton.2 rfl

theorem truthful (repo : JsString) : (output repo).Truthful (run repo).evidence := by
  intro r hr e he _
  rw [List.mem_singleton.1 hr, List.mem_singleton.1 he]
  exact ⟨rfl, rfl, rfl⟩

theorem covered (repo : JsString) : (run repo).covered (run repo).evidence = true := by
  simp [Run.covered, run, record, RunInput.run]

theorem fresh (repo : JsString) : ∀ e ∈ (run repo).evidence, ∃ time,
    Platform.plain.host.dateParse e.fetchedAt = some time ∧ (3 : ℤ) - 3600000 ≤ time ∧ time ≤ 3 := by
  intro e he
  rw [List.mem_singleton.1 he]
  exact ⟨3, rfl, by decide, by decide⟩

end Metrics

/-- The report on a repository whose name claims nothing passes. -/
theorem metrics_verified_octocat :
    (verifyMetricReport Platform.plain ((Metrics.run (js "octocat/hello")).draft
      ((Metrics.output (js "octocat/hello")).summary [js "octocat/hello"]) (js "now"))
        recommendation 3).all Check.passed = true := by
  have hnames : ∀ repo ∈ (Metrics.run (js "octocat/hello")).repos, isMetricRepo repo = true := by
    decide
  have hurls : ∀ e ∈ (Metrics.run (js "octocat/hello")).evidence,
      e.sourceUrl = Evidence.sourceUrl e.repo := by decide
  refine (metrics_verified_iff rfl (Metrics.covered _) hnames hurls (Metrics.fresh _)
    (Metrics.parse_content _) (Metrics.truthful _) (Metrics.format_content _)).2 ?_
  decide

/-- The name of a repository is taken for a claim, and the report on it fails. -/
theorem starry_name_rejected :
    (Metrics.run (js "a/100-stars")).title = title [js "a/100-stars"] ∧
    isMetricRepo (js "a/100-stars") = true ∧
    formatWorkerReport Platform.plain.readNumber (Metrics.content (js "a/100-stars"))
      [js "a/100-stars"] = .ok ((Metrics.output (js "a/100-stars")).summary [js "a/100-stars"]) ∧
    (Metrics.output (js "a/100-stars")).Truthful (Metrics.run (js "a/100-stars")).evidence ∧
    (∀ e ∈ (Metrics.run (js "a/100-stars")).evidence, e.sourceUrl = Evidence.sourceUrl e.repo ∧
      Platform.plain.host.dateParse e.fetchedAt = some 3) ∧
    (verifyMetricReport Platform.plain ((Metrics.run (js "a/100-stars")).draft
      ((Metrics.output (js "a/100-stars")).summary [js "a/100-stars"]) (js "now"))
        recommendation 3).all Check.passed = false :=
  ⟨rfl, by decide, Metrics.format_content _, Metrics.truthful _, by decide,
    by decide +kernel⟩

end Runs

end Obolos
