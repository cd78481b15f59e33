import Obolos.Runs.Stores
import Obolos.Economy.Operation

/-!
# Evidence that is paid for

A data service reads the metadata of the requested repositories from GitHub (`fetchRepoEvidence`),
settles the payment, and answers with it.  Then the buyer (`validateEvidence`), its broker
(`evidenceArray` and the check of coverage in `/data`) and the engine (`advanceRun`) check what was
bought.

The service hands on what GitHub answered, so the checks after the payment are the first ones:
`paid_evidence` says which answers of GitHub pass them (`Complete`).
-/

namespace Obolos

namespace Runs

namespace Evidence

open Json
open Obolos.Circle (isAlphanumeric)

/-- The functions on texts that the services use: those of the host, `toLowerCase`, and the
`z.iso.datetime({offset: true})` of the broker. -/
structure Texts where
  host : Host
  toLowerCase : JsString → JsString
  isDatetime : JsString → Bool

/-! ### The service -/

/-- `[A-Za-z0-9_.-]` -/
def isNameUnit (c : UInt16) : Bool := isAlphanumeric c || c == 95 || c == 46 || c == 45

/-- The text before the first slash, and the text after it. -/
def splitRepo (repo : JsString) : JsString × JsString :=
  (repo.takeWhile (· != 47), (repo.dropWhile (· != 47)).drop 1)

/-- The pattern of `validateRepos`, and a name that is no directory. -/
def isRepo (repo : JsString) : Bool :=
  let owner := (splitRepo repo).1
  let name := (splitRepo repo).2
  (owner.take 1).all isAlphanumeric && decide (1 ≤ owner.length ∧ owner.length ≤ 39) &&
    owner.all (fun c => isAlphanumeric c || c == 45) &&
    decide (1 ≤ name.length ∧ name.length ≤ 100) && name.all isNameUnit &&
    !([js ".", js ".."].contains name)

/-- One item of the array that `validateRepos` reads. -/
def readRepo : Json → Except JsError JsString
  | .str repo =>
    if isRepo repo then .ok repo else JsError.raise "Invalid GitHub owner/repository."
  | _ => JsError.raise "Invalid GitHub owner/repository."

/-- `validateRepos(value)` -/
def validateRepos (T : Texts) : Json → Except JsError (List JsString)
  | .arr items => do
    if items.length < 1 ∨ items.length > 3 then
      JsError.raise "Provide one to three repositories."
    let repos ← items.mapM readRepo
    if (repos.map T.toLowerCase).dedup.length ≠ repos.length then
      JsError.raise "Duplicate repositories are not billable."
    return repos
  | _ => JsError.raise "Provide one to three repositories."

/-- What GitHub answers for a repository, and when. -/
structure Snapshot where
  data : Json
  fetchedAt : JsString

/-- The URL of a repository. -/
def sourceUrl (repo : JsString) : JsString := js "https://api.github.com/repos/" ++ repo

/-- `value ?? text` -/
def orText (x : Option Json) (text : String) : Json :=
  match x with
  | none => .str (js text)
  | some .null => .str (js text)
  | some x => x

/-- `data.license?.spdx_id` -/
def Snapshot.license (snapshot : Snapshot) : Option Json :=
  (snapshot.data.prop "license").bind (prop "spdx_id")

/-- The fields of a record of evidence; one that is `undefined` is not there. -/
def evidenceFields (repo : JsString) (snapshot : Snapshot) : List (String × Option Json) :=
  [("repo", some (.str repo)),
    ("description", some (orText (snapshot.data.prop "description") "")),
    ("stars", snapshot.data.prop "stargazers_count"),
    ("forks", snapshot.data.prop "forks_count"),
    ("openIssues", snapshot.data.prop "open_issues_count"),
    ("pushedAt", snapshot.data.prop "pushed_at"),
    ("language", some (orText (snapshot.data.prop "language") "Not specified")),
    ("license", some (orText snapshot.license "Not specified")),
    ("sourceUrl", some (.str (sourceUrl repo))),
    ("fetchedAt", some (.str snapshot.fetchedAt))]

/-- The fields that are there. -/
def defined (fields : List (String × Option Json)) : List (JsString × Json) :=
  fields.filterMap fun field => field.2.map fun x => (js field.1, x)

/-- A record of evidence. -/
def evidenceOf (repo : JsString) (snapshot : Snapshot) : Json :=
  .obj (defined (evidenceFields repo snapshot))

/-- `fetchRepoEvidence` for one repository; `none` is a request that failed. -/
def fetchEvidence (T : Texts) (github : JsString → Option Snapshot) (repo : JsString) :
    Except JsError Json :=
  match github repo with
  | none => .error .other
  | some snapshot =>
    match snapshot.data.prop "private", snapshot.data.prop "full_name" with
    | some (.bool false), some (.str name) =>
      if T.toLowerCase name = T.toLowerCase repo then .ok (evidenceOf repo snapshot)
      else JsError.raise "Only exact public repository evidence can be purchased."
    | some (.bool false), none | some (.bool false), some .null =>
      JsError.raise "Only exact public repository evidence can be purchased."
    | some (.bool false), _ => .error .other
    | _, _ => JsError.raise "Only exact public repository evidence can be purchased."

/-- `fetchRepoEvidence(repos)` -/
def fetchRepoEvidence (T : Texts) (github : JsString → Option Snapshot) (repos : List JsString) :
    Except JsError (List Json) := do
  let repos ← validateRepos T (.arr (repos.map .str))
  repos.mapM (fetchEvidence T github)

/-! ### The buyer -/

/-- A value that may be `undefined`, and is a text with a property. -/
def textWith (p : JsString → Bool) : Option Json → Bool
  | some (.str s) => p s
  | _ => false

/-- A nonnegative safe integer. -/
def isCount : Option Json → Bool
  | some (.num q) => q.den == 1 && decide (0 ≤ q.num ∧ q.num < 2 ^ 53)
  | _ => false

/-- `Number.isFinite(Date.parse(value))` -/
def isDate (T : Texts) (x : Option Json) : Bool :=
  (T.host.dateParse (match x with | none => js "undefined" | some x => x.text T.host)).isSome

/-- The check of `validateEvidence` on one record. -/
def validateRecord (T : Texts) (repo : JsString) (e : Json) : Bool :=
  textWith (fun s => T.toLowerCase s = T.toLowerCase repo) (e.prop "repo") &&
    textWith (· = sourceUrl repo) (e.prop "sourceUrl") &&
    isDate T (e.prop "fetchedAt") && isDate T (e.prop "pushedAt") &&
    isCount (e.prop "stars") && isCount (e.prop "forks") && isCount (e.prop "openIssues") &&
    textWith (·.length ≤ 10000) (e.prop "description") &&
    textWith (·.length ≤ 10000) (e.prop "language") &&
    textWith (·.length ≤ 10000) (e.prop "license")

/-- `validateEvidence(value, repos)`; an accepted array is returned as it is. -/
def validateEvidence (T : Texts) (value : Json) (repos : List JsString) :
    Except JsError (List Json) :=
  match value with
  | .arr items =>
    if items.length ≠ repos.length then JsError.raise "Provider returned incomplete evidence."
    else if (repos.zip items).all fun entry => validateRecord T entry.1 entry.2 then .ok items
    else JsError.raise "Provider evidence failed source/schema validation."
  | _ => JsError.raise "Provider returned incomplete evidence."

/-! ### The broker -/

/-- The schema `repo` of the broker. -/
def isBrokerRepo (repo : JsString) : Bool :=
  let owner := (splitRepo repo).1
  let name := (splitRepo repo).2
  decide (repo.length ≤ 200) && decide (1 ≤ owner.length) && owner.all isNameUnit &&
    decide (1 ≤ name.length) && name.all isNameUnit

/-- The keys of `evidenceSchema`. -/
def evidenceKeys : List String :=
  ["repo", "description", "stars", "forks", "openIssues", "pushedAt", "language", "license",
    "sourceUrl", "fetchedAt"]

/-- `evidenceSchema` -/
def evidenceSchema (T : Texts) : Json → Bool
  | .obj fields =>
    (fields.all fun field => (evidenceKeys.map js).contains field.1) &&
      textWith isBrokerRepo (get (js "repo") fields) &&
      textWith (·.length ≤ 4000) (get (js "description") fields) &&
      isCount (get (js "stars") fields) && isCount (get (js "forks") fields) &&
      isCount (get (js "openIssues") fields) && textWith T.isDatetime (get (js "pushedAt") fields) &&
      textWith (·.length ≤ 100) (get (js "language") fields) &&
      textWith (·.length ≤ 100) (get (js "license") fields) &&
      textWith (fun s => (T.host.url s).isSome && s.length ≤ 1000) (get (js "sourceUrl") fields) &&
      textWith T.isDatetime (get (js "fetchedAt") fields)
  | _ => false

/-- `evidenceArray` -/
def evidenceArray (T : Texts) (items : List Json) : Bool :=
  decide (1 ≤ items.length ∧ items.length ≤ 3) && items.all (evidenceSchema T)

/-- The check of coverage in `/data`. -/
def brokerCovers (repos : List JsString) (items : List Json) : Bool :=
  decide (items.length = repos.length) &&
    items.all fun e => textWith (repos.contains ·) (e.prop "repo")

/-! ### The engine -/

/-- A number that the engine reads. -/
def asNum : Json → Option ℚ
  | .num q => some q
  | _ => none

/-- What the engine reads of a record that the broker sent. -/
def readRecord (e : Json) : Option RepoEvidence := do
  let repo ← (e.prop "repo").bind asStr
  let stars ← (e.prop "stars").bind asNum
  let forks ← (e.prop "forks").bind asNum
  let openIssues ← (e.prop "openIssues").bind asNum
  let pushedAt ← (e.prop "pushedAt").bind asStr
  let sourceUrl ← (e.prop "sourceUrl").bind asStr
  let fetchedAt ← (e.prop "fetchedAt").bind asStr
  return { repo, stars, forks, openIssues, pushedAt, sourceUrl, fetchedAt }

/-! ### What GitHub has to answer -/

/-- A text of at most so many characters, or nothing. -/
def atMost (n : ℕ) : Option Json → Bool
  | none => true
  | some .null => true
  | some (.str s) => decide (s.length ≤ n)
  | some _ => false

/-- An answer of GitHub's that gives a complete record. -/
structure Complete (T : Texts) (snapshot : Snapshot) : Prop where
  stars : isCount (snapshot.data.prop "stargazers_count") = true
  forks : isCount (snapshot.data.prop "forks_count") = true
  openIssues : isCount (snapshot.data.prop "open_issues_count") = true
  pushedAt : textWith (fun s => T.isDatetime s && (T.host.dateParse s).isSome)
    (snapshot.data.prop "pushed_at") = true
  description : atMost 4000 (snapshot.data.prop "description") = true
  language : atMost 100 (snapshot.data.prop "language") = true
  license : atMost 100 snapshot.license = true

/-- What the texts of a record that the service writes itself are. -/
structure Texts.Reads (T : Texts) (github : JsString → Option Snapshot) : Prop where
  url : ∀ repo, isRepo repo = true → (T.host.url (sourceUrl repo)).isSome = true
  now : ∀ repo snapshot, github repo = some snapshot →
    T.isDatetime snapshot.fetchedAt = true ∧ (T.host.dateParse snapshot.fetchedAt).isSome = true

/-! ### Records -/

section

variable {T : Texts} {repo : JsString} {snapshot : Snapshot}

theorem get_defined {fields : List (String × Option Json)} (h : (fields.map Prod.fst).Nodup)
    {key : String} {x : Option Json} (hmem : (key, x) ∈ fields) :
    get (js key) (defined fields) = x := by
  induction fields with
  | nil => cases hmem
  | cons field fields ih =>
    obtain ⟨k, y⟩ := field
    rw [List.map_cons, List.nodup_cons] at h
    have hrest : ∀ {fields : List (String × Option Json)}, key ∉ fields.map Prod.fst →
        get (js key) (defined fields) = none := by
      intro fields hnot
      induction fields with
      | nil => rfl
      | cons field fields ih =>
        obtain ⟨k', z⟩ := field
        rw [List.map_cons, List.mem_cons, not_or] at hnot
        cases z with
        | none => exact ih hnot.2
        | some z =>
          show get (js key) ((js k', z) :: defined fields) = none
          rw [Json.get, if_neg (fun he => hnot.1 (js_inj.1 he).symm)]
          exact ih hnot.2
    by_cases hk : k = key
    · subst hk
      have hx : x = y := by
        rcases List.mem_cons.1 hmem with he | hmem
        · exact (Prod.mk.inj he).2
        · exact absurd (List.mem_map.2 ⟨_, hmem, rfl⟩) h.1
      subst hx
      cases x with
      | none => exact (hrest h.1 : get (js k) (defined fields) = none)
      | some x =>
        show get (js k) ((js k, x) :: defined fields) = some x
        rw [Json.get, if_pos rfl]
    · have hmem' : (key, x) ∈ fields := by
        rcases List.mem_cons.1 hmem with he | hmem
        · exact absurd (Prod.mk.inj he).1.symm hk
        · exact hmem
      cases y with
      | none => exact ih h.2 hmem'
      | some y =>
        show get (js key) ((js k, y) :: defined fields) = x
        rw [Json.get, if_neg (fun he => hk (js_inj.1 he))]
        exact ih h.2 hmem'

/-- A field of a record that was sent. -/
theorem prop_evidence {key : String} {x : Option Json}
    (h : (key, x) ∈ evidenceFields repo snapshot) :
    (evidenceOf repo snapshot).copied.prop key = x.map copied := by
  show get (js key) (copiedFields (defined (evidenceFields repo snapshot))) = _
  rw [get_copiedFields, get_defined (by simp [evidenceFields]) h]

theorem textWith_copied {p : JsString → Bool} (x : Option Json) :
    textWith p (x.map copied) = textWith p x := by
  cases x with
  | none => rfl
  | some x => cases x <;> rfl

theorem isCount_copied (x : Option Json) : isCount (x.map copied) = isCount x := by
  cases x with
  | none => rfl
  | some x => cases x <;> rfl

/-- A text that has a default. -/
theorem textWith_orText {n : ℕ} {text : String} (h : (js text).length ≤ n) (x : Option Json) :
    textWith (fun s => decide (s.length ≤ n)) (some (orText x text)) = atMost n x := by
  cases x with
  | none => simpa [orText, textWith, atMost] using h
  | some x =>
    cases x with
    | null => simpa [orText, textWith, atMost] using h
    | _ => rfl

/-- A repository of a request is one for the broker. -/
theorem isBrokerRepo_of_isRepo (h : isRepo repo = true) : isBrokerRepo repo = true := by
  simp only [isRepo, Bool.and_eq_true, decide_eq_true_eq, List.all_eq_true] at h
  obtain ⟨⟨⟨⟨⟨-, hlow, hhigh⟩, howner⟩, hname⟩, hunits⟩, -⟩ := h
  have hlength : repo.length = (splitRepo repo).1.length + ((splitRepo repo).2.length + 1) := by
    have hsplit : repo = repo.takeWhile (· != 47) ++ repo.dropWhile (· != 47) :=
      List.takeWhile_append_dropWhile.symm
    have hdrop : (splitRepo repo).2.length = (repo.dropWhile (· != 47)).length - 1 := by
      rw [splitRepo, List.length_drop]
    have hsum : repo.length = (repo.takeWhile (· != 47)).length +
        (repo.dropWhile (· != 47)).length := by
      conv_lhs => rw [hsplit, List.length_append]
    have hfirst : (splitRepo repo).1.length = (repo.takeWhile (· != 47)).length := rfl
    omega
  simp only [isBrokerRepo, Bool.and_eq_true, decide_eq_true_eq, List.all_eq_true]
  refine ⟨⟨⟨⟨by omega, hlow⟩, fun c hc => ?_⟩, hname.1⟩, hunits⟩
  have hunit := howner c hc
  simp only [isNameUnit, Bool.or_eq_true] at hunit ⊢
  rcases hunit with hletter | hdash
  · exact Or.inl (Or.inl (Or.inl hletter))
  · exact Or.inr hdash

theorem length_sourceUrl (h : isRepo repo = true) : (sourceUrl repo).length ≤ 1000 := by
  have hrepo := isBrokerRepo_of_isRepo h
  simp only [isBrokerRepo, Bool.and_eq_true, decide_eq_true_eq] at hrepo
  have hprefix : (js "https://api.github.com/repos/").length = 29 := by decide
  rw [sourceUrl, List.length_append, hprefix]
  omega

/-- A value under one of the names, as it was sent. -/
theorem prop_evidenceFields (repo : JsString) (snapshot : Snapshot) :
    (evidenceOf repo snapshot).copied.prop "repo" = some (.str repo) ∧
    (evidenceOf repo snapshot).copied.prop "description" =
      some (orText (snapshot.data.prop "description") "").copied ∧
    (evidenceOf repo snapshot).copied.prop "stars" =
      (snapshot.data.prop "stargazers_count").map copied ∧
    (evidenceOf repo snapshot).copied.prop "forks" =
      (snapshot.data.prop "forks_count").map copied ∧
    (evidenceOf repo snapshot).copied.prop "openIssues" =
      (snapshot.data.prop "open_issues_count").map copied ∧
    (evidenceOf repo snapshot).copied.prop "pushedAt" =
      (snapshot.data.prop "pushed_at").map copied ∧
    (evidenceOf repo snapshot).copied.prop "language" =
      some (orText (snapshot.data.prop "language") "Not specified").copied ∧
    (evidenceOf repo snapshot).copied.prop "license" =
      some (orText snapshot.license "Not specified").copied ∧
    (evidenceOf repo snapshot).copied.prop "sourceUrl" = some (.str (sourceUrl repo)) ∧
    (evidenceOf repo snapshot).copied.prop "fetchedAt" = some (.str snapshot.fetchedAt) := by
  refine ⟨?_, ?_, ?_, ?_, ?_, ?_, ?_, ?_, ?_, ?_⟩
  · exact prop_evidence (x := some (.str repo)) (by simp [evidenceFields])
  · exact prop_evidence (x := some (orText (snapshot.data.prop "description") ""))
      (by simp [evidenceFields])
  · exact prop_evidence (by simp [evidenceFields])
  · exact prop_evidence (by simp [evidenceFields])
  · exact prop_evidence (by simp [evidenceFields])
  · exact prop_evidence (by simp [evidenceFields])
  · exact prop_evidence (x := some (orText (snapshot.data.prop "language") "Not specified"))
      (by simp [evidenceFields])
  · exact prop_evidence (x := some (orText snapshot.license "Not specified"))
      (by simp [evidenceFields])
  · exact prop_evidence (x := some (.str (sourceUrl repo))) (by simp [evidenceFields])
  · exact prop_evidence (x := some (.str snapshot.fetchedAt)) (by simp [evidenceFields])

/-- The keys of a record that was sent are those of the schema. -/
theorem keys_evidence : ((copiedFields (defined (evidenceFields repo snapshot))).all fun field =>
    (evidenceKeys.map js).contains field.1) = true := by
  refine List.all_eq_true.2 fun field hfield => ?_
  have hname : field.1 ∈ (defined (evidenceFields repo snapshot)).map Prod.fst := by
    rw [← map_fst_copiedFields]
    exact List.mem_map.2 ⟨field, hfield, rfl⟩
  obtain ⟨entry, hentry, hfst⟩ := List.mem_map.1 hname
  obtain ⟨f, hf, hsome⟩ := List.mem_filterMap.1 hentry
  obtain ⟨x, -, rfl⟩ := Option.map_eq_some_iff.1 hsome
  rw [← hfst, List.contains_iff_mem]
  refine List.mem_map.2 ⟨f.1, ?_, rfl⟩
  have hall : (evidenceFields repo snapshot).map Prod.fst = evidenceKeys := rfl
  rw [← hall]
  exact List.mem_map.2 ⟨f, hf, rfl⟩

/-- What the broker asks of a record. -/
theorem evidenceSchema_iff {github : JsString → Option Snapshot} (hT : T.Reads github)
    (hrepo : isRepo repo = true) (hsnapshot : github repo = some snapshot) :
    evidenceSchema T (evidenceOf repo snapshot).copied = true ↔
      atMost 4000 (snapshot.data.prop "description") = true ∧
      isCount (snapshot.data.prop "stargazers_count") = true ∧
      isCount (snapshot.data.prop "forks_count") = true ∧
      isCount (snapshot.data.prop "open_issues_count") = true ∧
      textWith T.isDatetime (snapshot.data.prop "pushed_at") = true ∧
      atMost 100 (snapshot.data.prop "language") = true ∧ atMost 100 snapshot.license = true := by
  have hdescription : ∀ x, textWith (fun s => decide (s.length ≤ 4000)) (some (orText x "").copied) =
      atMost 4000 x := by
    intro x
    rw [← textWith_orText (show (js "").length ≤ 4000 by decide) x]
    exact textWith_copied (some (orText x ""))
  have hshort : ∀ x, textWith (fun s => decide (s.length ≤ 100))
      (some (orText x "Not specified").copied) = atMost 100 x := by
    intro x
    rw [← textWith_orText (show (js "Not specified").length ≤ 100 by decide) x]
    exact textWith_copied (some (orText x "Not specified"))
  obtain ⟨h1, h2, h3, h4, h5, h6, h7, h8, h9, h10⟩ :=
    prop_evidenceFields repo snapshot
  obtain ⟨hnow, -⟩ := hT.now repo snapshot hsnapshot
  show (evidenceSchema T (.obj (copiedFields (defined (evidenceFields repo snapshot))))) = true ↔ _
  rw [evidenceSchema, keys_evidence]
  change (true && textWith isBrokerRepo ((evidenceOf repo snapshot).copied.prop "repo") &&
    textWith (·.length ≤ 4000) ((evidenceOf repo snapshot).copied.prop "description") &&
    isCount ((evidenceOf repo snapshot).copied.prop "stars") &&
    isCount ((evidenceOf repo snapshot).copied.prop "forks") &&
    isCount ((evidenceOf repo snapshot).copied.prop "openIssues") &&
    textWith T.isDatetime ((evidenceOf repo snapshot).copied.prop "pushedAt") &&
    textWith (·.length ≤ 100) ((evidenceOf repo snapshot).copied.prop "language") &&
    textWith (·.length ≤ 100) ((evidenceOf repo snapshot).copied.prop "license") &&
    textWith (fun s => (T.host.url s).isSome && s.length ≤ 1000)
      ((evidenceOf repo snapshot).copied.prop "sourceUrl") &&
    textWith T.isDatetime ((evidenceOf repo snapshot).copied.prop "fetchedAt")) = true ↔ _
  rw [h1, h2, h3, h4, h5, h6, h7, h8, h9, h10]
  simp only [hdescription, hshort, textWith_copied, isCount_copied]
  simp only [textWith, isBrokerRepo_of_isRepo hrepo, hT.url repo hrepo, length_sourceUrl hrepo, hnow,
    decide_true, Bool.and_true, Bool.true_and, Bool.and_eq_true, and_assoc]

theorem atMost_mono {n m : ℕ} {x : Option Json} (hn : n ≤ m) (h : atMost n x = true) :
    atMost m x = true := by
  cases x with
  | none => rfl
  | some x =>
    cases x with
    | str s => exact decide_eq_true ((of_decide_eq_true h).trans hn)
    | null => rfl
    | _ => cases h

/-- A date that the broker reads is one that the buyer reads, when `Date.parse` reads it. -/
theorem isDate_iff {x : Option Json} (h : textWith T.isDatetime x = true) :
    isDate T (x.map copied) = true ↔
      textWith (fun s => T.isDatetime s && (T.host.dateParse s).isSome) x = true := by
  cases x with
  | none => cases h
  | some x =>
    cases x with
    | str s =>
      have hs : T.isDatetime s = true := h
      simp only [isDate, Option.map_some, copied, textWith, hs, Bool.true_and, Json.text]
    | _ => cases h

/-- What the buyer asks of a record that the broker accepts: a date that `Date.parse` reads. -/
theorem validateRecord_iff {github : JsString → Option Snapshot} (hT : T.Reads github)
    (hrepo : isRepo repo = true) (hsnapshot : github repo = some snapshot)
    (h : evidenceSchema T (evidenceOf repo snapshot).copied = true) :
    validateRecord T repo (evidenceOf repo snapshot).copied = true ↔
      textWith (fun s => T.isDatetime s && (T.host.dateParse s).isSome)
        (snapshot.data.prop "pushed_at") = true := by
  obtain ⟨hdescription, hstars, hforks, hissues, hpushed, hlanguage, hlicense⟩ :=
    (evidenceSchema_iff hT hrepo hsnapshot).1 h
  obtain ⟨-, hnow⟩ := hT.now repo snapshot hsnapshot
  obtain ⟨h1, h2, h3, h4, h5, h6, h7, h8, h9, h10⟩ :=
    prop_evidenceFields repo snapshot
  have hlong : ∀ (x : Option Json) (text : String), (js text).length ≤ 10000 →
      atMost 10000 x = true →
      textWith (fun s => decide (s.length ≤ 10000)) (some (orText x text).copied) = true := by
    intro x text htext hx
    rw [← textWith_orText htext x] at hx
    rwa [← textWith_copied] at hx
  have hdescription' := hlong _ "" (by decide) (atMost_mono (by omega) hdescription)
  have hlanguage' := hlong _ "Not specified" (by decide) (atMost_mono (by omega) hlanguage)
  have hlicense' := hlong _ "Not specified" (by decide) (atMost_mono (by omega) hlicense)
  have hdate : isDate T (some (.str snapshot.fetchedAt)) = true := hnow
  rw [validateRecord, h1, h2, h3, h4, h5, h6, h7, h8, h9, h10, hdate, hdescription', hlanguage',
    hlicense', isCount_copied, isCount_copied, isCount_copied, hstars, hforks, hissues]
  simp only [textWith, decide_true, Bool.and_true, Bool.true_and]
  exact isDate_iff hpushed

/-- A record passes both checks exactly if GitHub's answer was complete. -/
theorem record_iff {github : JsString → Option Snapshot} (hT : T.Reads github)
    (hrepo : isRepo repo = true) (hsnapshot : github repo = some snapshot) :
    (validateRecord T repo (evidenceOf repo snapshot).copied = true ∧
      evidenceSchema T (evidenceOf repo snapshot).copied = true) ↔ Complete T snapshot := by
  constructor
  · rintro ⟨hvalid, hschema⟩
    obtain ⟨hdescription, hstars, hforks, hissues, -, hlanguage, hlicense⟩ :=
      (evidenceSchema_iff hT hrepo hsnapshot).1 hschema
    exact ⟨hstars, hforks, hissues, (validateRecord_iff hT hrepo hsnapshot hschema).1 hvalid,
      hdescription, hlanguage, hlicense⟩
  · intro h
    have hpushed : textWith T.isDatetime (snapshot.data.prop "pushed_at") = true := by
      have hboth := h.pushedAt
      unfold textWith at hboth ⊢
      split at hboth
      · exact (Bool.and_eq_true _ _ ▸ hboth).1
      · cases hboth
    have hschema := (evidenceSchema_iff hT hrepo hsnapshot).2
      ⟨h.description, h.stars, h.forks, h.openIssues, hpushed, h.language, h.license⟩
    exact ⟨(validateRecord_iff hT hrepo hsnapshot hschema).2 h.pushedAt, hschema⟩

/-- The engine reads a record that the broker accepts, under its name. -/
theorem read_evidence (repo : JsString) (h : Complete T snapshot) :
    ∃ record, readRecord (evidenceOf repo snapshot).copied = some record ∧
      record.repo = repo := by
  have hcount : ∀ x : Option Json, isCount x = true →
      ∃ q, (x.map copied).bind asNum = some q := by
    intro x hx
    unfold isCount at hx
    split at hx
    · exact ⟨_, rfl⟩
    · cases hx
  have htext : ∀ (p : JsString → Bool) (x : Option Json), textWith p x = true →
      ∃ s, (x.map copied).bind asStr = some s := by
    intro p x hx
    unfold textWith at hx
    split at hx
    · exact ⟨_, rfl⟩
    · cases hx
  obtain ⟨stars, hstars⟩ := hcount _ h.stars
  obtain ⟨forks, hforks⟩ := hcount _ h.forks
  obtain ⟨issues, hissues⟩ := hcount _ h.openIssues
  obtain ⟨pushed, hpushed⟩ := htext _ _ h.pushedAt
  obtain ⟨h1, h2, h3, h4, h5, h6, h7, h8, h9, h10⟩ :=
    prop_evidenceFields repo snapshot
  refine ⟨⟨repo, stars, forks, issues, pushed, sourceUrl repo, snapshot.fetchedAt⟩, ?_, rfl⟩
  rw [readRecord, h1, h3, h4, h5, h6, h9, h10, hstars, hforks, hissues, hpushed]
  rfl

/-! ### All records -/

/-- The array that `validateRepos` reads is one of repositories. -/
theorem readRepos {items : List Json} {repos : List JsString}
    (h : items.mapM readRepo = .ok repos) :
    items = repos.map .str ∧ ∀ repo ∈ repos, isRepo repo = true := by
  induction items generalizing repos with
  | nil =>
    rw [List.mapM_nil] at h
    cases h
    exact ⟨rfl, fun repo hrepo => absurd hrepo List.not_mem_nil⟩
  | cons item items ih =>
    rw [List.mapM_cons] at h
    cases hitem : readRepo item with
    | error e =>
      rw [hitem] at h
      cases h
    | ok repo =>
      cases hitems : items.mapM readRepo with
      | error e =>
        rw [hitem, hitems] at h
        cases h
      | ok rest =>
        rw [hitem, hitems] at h
        cases h
        obtain ⟨hrest, hall⟩ := ih hitems
        unfold readRepo at hitem
        split at hitem
        · split at hitem
          · rename_i hrepo
            cases hitem
            exact ⟨by rw [hrest, List.map_cons], List.forall_mem_cons.2 ⟨hrepo, hall⟩⟩
          · cases hitem
        · cases hitem

/-- What a request of repositories that is accepted says. -/
theorem validateRepos_spec {value : Json} {repos : List JsString}
    (h : validateRepos T value = .ok repos) :
    value = .arr (repos.map .str) ∧ (1 ≤ repos.length ∧ repos.length ≤ 3) ∧
      (∀ repo ∈ repos, isRepo repo = true) ∧ repos.Nodup := by
  cases value with
  | arr items =>
    simp only [validateRepos] at h
    split at h
    · cases h
    · rename_i hlength
      cases hitems : items.mapM readRepo with
      | error e =>
        rw [hitems] at h
        cases h
      | ok names =>
        rw [hitems] at h
        change (if _ then _ else _) = _ at h
        split_ifs at h with hdup
        · cases h
        rw [ne_eq, not_not] at hdup
        cases h
        obtain ⟨rfl, hall⟩ := readRepos hitems
        rw [List.length_map] at hlength
        refine ⟨rfl, by omega, hall, ?_⟩
        have hnodup : (repos.map T.toLowerCase).Nodup := by
          rw [← List.dedup_eq_self]
          exact (List.dedup_sublist _).eq_of_length (by rw [hdup, List.length_map])
        exact hnodup.of_map
  | _ => cases h

/-- A record of the service is that of GitHub's answer. -/
theorem fetchEvidence_spec {github : JsString → Option Snapshot} {e : Json}
    (h : fetchEvidence T github repo = .ok e) :
    ∃ snapshot, github repo = some snapshot ∧ e = evidenceOf repo snapshot := by
  unfold fetchEvidence at h
  split at h
  · cases h
  · rename_i snapshot hsnapshot
    refine ⟨snapshot, hsnapshot, ?_⟩
    split at h
    · split at h
      · exact (Except.ok.inj h).symm
      · cases h
    · cases h
    · cases h
    · cases h
    · cases h

/-- The records of the service are those of GitHub's answers, in the order of the request. -/
theorem fetchAll_spec {github : JsString → Option Snapshot} {repos : List JsString}
    {evidence : List Json} (h : repos.mapM (fetchEvidence T github) = .ok evidence) :
    List.Forall₂ (fun repo e => ∃ snapshot, github repo = some snapshot ∧
      e = (evidenceOf repo snapshot).copied) repos (copiedItems evidence) := by
  induction repos generalizing evidence with
  | nil =>
    rw [List.mapM_nil] at h
    cases h
    exact .nil
  | cons repo repos ih =>
    rw [List.mapM_cons] at h
    cases hone : fetchEvidence T github repo with
    | error e =>
      rw [hone] at h
      cases h
    | ok e =>
      cases hrest : repos.mapM (fetchEvidence T github) with
      | error e' =>
        rw [hone, hrest] at h
        cases h
      | ok rest =>
        rw [hone, hrest] at h
        cases h
        obtain ⟨snapshot, hsnapshot, rfl⟩ := fetchEvidence_spec hone
        exact .cons ⟨snapshot, hsnapshot, rfl⟩ (ih hrest)

variable {github : JsString → Option Snapshot} {repos : List JsString} {items : List Json}

/-- The names of the records are the repositories of the request. -/
theorem read_all (h : List.Forall₂ (fun repo e => ∃ snapshot, github repo = some snapshot ∧
      e = (evidenceOf repo snapshot).copied) repos items)
    (hcomplete : ∀ repo ∈ repos, ∀ snapshot, github repo = some snapshot → Complete T snapshot) :
    ∃ records, items.mapM readRecord = some records ∧
      records.map RepoEvidence.repo = repos := by
  induction h with
  | nil => exact ⟨[], rfl, rfl⟩
  | @cons repo e repos items hone hrest ih =>
    obtain ⟨snapshot, hsnapshot, rfl⟩ := hone
    obtain ⟨record, hread, hname⟩ := read_evidence repo
      (hcomplete repo (List.mem_cons_self ..) snapshot hsnapshot)
    obtain ⟨records, hreads, hnames⟩ := ih fun repo hrepo =>
      hcomplete repo (List.mem_cons_of_mem _ hrepo)
    refine ⟨record :: records, ?_, ?_⟩
    · rw [List.mapM_cons, hread, hreads]
      rfl
    · rw [List.map_cons, hname, hnames]

/-- All records pass both checks exactly if all answers were complete. -/
theorem records_iff (hT : T.Reads github)
    (h : List.Forall₂ (fun repo e => ∃ snapshot, github repo = some snapshot ∧
      e = (evidenceOf repo snapshot).copied) repos items)
    (hrepos : ∀ repo ∈ repos, isRepo repo = true) :
    (((repos.zip items).all fun entry => validateRecord T entry.1 entry.2) = true ∧
      items.all (evidenceSchema T) = true) ↔
      ∀ repo ∈ repos, ∀ snapshot, github repo = some snapshot → Complete T snapshot := by
  induction h with
  | nil => simp
  | @cons repo e repos items hone hrest ih =>
    obtain ⟨snapshot, hsnapshot, rfl⟩ := hone
    have hhead := record_iff hT (hrepos repo (List.mem_cons_self ..)) hsnapshot
    have htail := ih fun repo hrepo => hrepos repo (List.mem_cons_of_mem _ hrepo)
    rw [List.zip_cons_cons, List.all_cons, List.all_cons, Bool.and_eq_true, Bool.and_eq_true,
      List.forall_mem_cons, and_and_and_comm, hhead, htail]
    refine and_congr_left fun _ =>
      ⟨fun hcomplete other hother => ?_, fun hall => hall snapshot hsnapshot⟩
    rw [hsnapshot] at hother
    cases hother
    exact hcomplete

/-- The records cover the repositories of the request. -/
theorem covers (h : List.Forall₂ (fun repo e => ∃ snapshot, github repo = some snapshot ∧
      e = (evidenceOf repo snapshot).copied) repos items) : brokerCovers repos items = true := by
  rw [brokerCovers, h.length_eq, decide_eq_true rfl, Bool.true_and, List.all_eq_true]
  intro e he
  obtain ⟨i, hi, rfl⟩ := List.getElem_of_mem he
  have hi' : i < repos.length := h.length_eq ▸ hi
  obtain ⟨snapshot, -, heq⟩ := List.forall₂_iff_get.1 h |>.2 i hi' hi
  rw [List.get_eq_getElem] at heq
  rw [heq, (prop_evidenceFields _ snapshot).1]
  exact List.contains_iff_mem.2 (List.getElem_mem hi')

/-- **What is paid for.**  The evidence of a request passes the checks of the buyer, its broker and
the engine exactly if GitHub's answers were complete: the service only checks their names. -/
theorem paid_evidence {value : Json} {evidence : List Json} {run : Run} (hT : T.Reads github)
    (hvalue : validateRepos T value = .ok repos)
    (hfetch : fetchRepoEvidence T github repos = .ok evidence) (hrun : run.repos = repos) :
    (validateEvidence T (.arr (copiedItems evidence)) repos = .ok (copiedItems evidence) ∧
      evidenceArray T (copiedItems evidence) = true ∧
      brokerCovers repos (copiedItems evidence) = true ∧
      ∃ records, (copiedItems evidence).mapM readRecord = some records ∧
        run.covered records = true) ↔
      ∀ repo ∈ repos, ∀ snapshot, github repo = some snapshot → Complete T snapshot := by
  obtain ⟨-, hlength, hrepos, hnodup⟩ := validateRepos_spec hvalue
  have hall : List.Forall₂ (fun repo e => ∃ snapshot, github repo = some snapshot ∧
      e = (evidenceOf repo snapshot).copied) repos (copiedItems evidence) := by
    rw [fetchRepoEvidence] at hfetch
    cases hagain : validateRepos T (.arr (repos.map .str)) with
    | error e =>
      rw [hagain] at hfetch
      cases hfetch
    | ok names =>
      rw [hagain] at hfetch
      have hnames := Json.arr.inj (validateRepos_spec hagain).1
      -- Names that are validated once more are the same names.
      have hsame : repos = names := List.map_injective_iff.2 (fun _ _ => Json.str.inj) hnames
      rw [← hsame] at hfetch
      exact fetchAll_spec hfetch
  have hsame := hall.length_eq
  have hiff := records_iff hT hall hrepos
  constructor
  · rintro ⟨hbuyer, hbroker, -, -⟩
    refine hiff.1 ⟨?_, (Bool.and_eq_true _ _ ▸ hbroker).2⟩
    simp only [validateEvidence] at hbuyer
    split_ifs at hbuyer with hfew hvalid
    · cases hbuyer
    · exact hvalid
    · cases hbuyer
  · intro hcomplete
    obtain ⟨hbuyer, hbroker⟩ := hiff.2 hcomplete
    obtain ⟨records, hreads, hnames⟩ := read_all hall hcomplete
    refine ⟨?_, ?_, covers hall, records, hreads, ?_⟩
    · simp only [validateEvidence]
      rw [if_neg (by rw [hsame]; exact fun hne => hne rfl), if_pos hbuyer]
    · rw [evidenceArray, hbroker, Bool.and_true, decide_eq_true_eq, ← hsame]
      exact hlength
    · have hcount : records.length = repos.length := by rw [← hnames, List.length_map]
      rw [Run.covered, hrun, hnames, List.dedup_eq_self.2 hnodup, hcount]
      simp only [decide_true, Bool.true_and, Bool.and_true, List.all_eq_true, decide_eq_true_eq]
      intro record hrecord
      rw [← hnames]
      exact List.mem_map.2 ⟨record, hrecord, rfl⟩

end

namespace Sample

/-- A time. -/
def time : JsString := js "2026-01-01T00:00:00Z"

/-- Texts in which there is one time. -/
def texts : Texts where
  host := { Host.plain with dateParse := fun s => if s = time then some 1767225600000 else none }
  toLowerCase := JsString.toLowerCase
  isDatetime s := decide (s = time)

/-- A repository. -/
def repo : JsString := js "octocat/hello"

/-- What GitHub answers for the repository, with the time of the last push. -/
def snapshot (pushedAt : Json) : Snapshot where
  data := .obj [(js "private", .bool false), (js "full_name", .str repo),
    (js "description", .null), (js "stargazers_count", .num 3), (js "forks_count", .num 1),
    (js "open_issues_count", .num 0), (js "pushed_at", pushedAt), (js "language", .null),
    (js "license", .null)]
  fetchedAt := time

/-- GitHub has one repository. -/
def github (pushedAt : Json) (name : JsString) : Option Snapshot :=
  if name = repo then some (snapshot pushedAt) else none

theorem reads (pushedAt : Json) : texts.Reads (github pushedAt) where
  url _ _ := rfl
  now name other h := by
    unfold github at h
    split_ifs at h
    cases h
    have hnow : texts.isDatetime time = true := by decide
    exact ⟨hnow, rfl⟩

/-- A run for the repository. -/
def run : Run :=
  let input : RunInput := ⟨[repo], none, none, none, none, none, none⟩
  input.run (js "run") time (input.mandate time)

end Sample

/-- A repository with a push can be used after it was paid for. -/
theorem paid_evidence_sample :
    validateRepos Sample.texts (.arr [.str Sample.repo]) = .ok [Sample.repo] ∧
    (fetchRepoEvidence Sample.texts (Sample.github (.str Sample.time)) [Sample.repo]).toOption =
      some [evidenceOf Sample.repo (Sample.snapshot (.str Sample.time))] ∧
    brokerCovers [Sample.repo]
      (copiedItems [evidenceOf Sample.repo (Sample.snapshot (.str Sample.time))]) = true := by
  have hvalue : validateRepos Sample.texts (.arr [.str Sample.repo]) = .ok [Sample.repo] := rfl
  have hfetch : fetchRepoEvidence Sample.texts (Sample.github (.str Sample.time)) [Sample.repo] =
      .ok [evidenceOf Sample.repo (Sample.snapshot (.str Sample.time))] := rfl
  refine ⟨hvalue, by rw [hfetch]; rfl, ?_⟩
  refine ((@paid_evidence _ _ _ _ _ Sample.run (Sample.reads _) hvalue hfetch rfl).2 ?_).2.2.1
  intro repo hrepo snapshot hsnapshot
  cases List.mem_singleton.1 hrepo
  cases hsnapshot
  exact ⟨by decide, by decide, by decide, by decide, by decide, by decide, by decide⟩

/-- A repository without a push is sold, and the buyer and its broker refuse its evidence. -/
theorem null_push_refused :
    ∃ evidence, fetchRepoEvidence Sample.texts (Sample.github .null) [Sample.repo] = .ok evidence ∧
      validateEvidence Sample.texts (.arr (copiedItems evidence)) [Sample.repo] =
        .error (.error (js "Provider evidence failed source/schema validation.")) ∧
      evidenceArray Sample.texts (copiedItems evidence) = false :=
  ⟨[evidenceOf Sample.repo (Sample.snapshot .null)], rfl, rfl, by decide +kernel⟩

end Evidence

end Runs

end Obolos
