import ReproitCloud.Lib.Outline
import ReproitCloud.Http.Request

/-!
# The configuration of a shard

A shard runs in a directory of its own with a copy of the app's `reproit.yaml`.
`isolate` rewrites the text line by line: below a line that starts with `evidence:`
it points every `outDir:` at the directory of the shard, and it makes every
`webRunnerDir:` absolute.  `find_report` looks for the report in that directory.

The text is read as an outline of settings (`Lib.Outline`).  `Isolated` says what the
copy should be: `evidence.outDir` is the directory of the shard, and nothing else
has changed but `webRunnerDir`.  `isolated_iff` says when it is.  A configuration
without `evidence.outDir` gets none, and the flag for the section is never taken
back, so an `outDir` of a later section is redirected as well.
-/

namespace ReproitCloud

open Lib

/-! ## Paths -/

/-- `Path::join`. -/
def pathJoin (base rest : List Char) : List Char :=
  if rest.head? = some '/' then rest
  else if base = [] ∨ base.getLast? = some '/' then base ++ rest
  else base ++ '/' :: rest

/-- The working directory of a shard. -/
def workDir (app job : List Char) (seed : UInt32) : List Char :=
  pathJoin app (".reproit-cloud/".toList ++ job ++ '/' :: uint32Chars seed)

/-- The directory that `find_report` lists. -/
def reportsDir (work : List Char) : List Char := pathJoin work "runs".toList

/-- The path of a `webRunnerDir`: resolved by the file system, or else joined. -/
def absoluteDir (canonicalize : List Char → Option (List Char)) (app rest : List Char) :
    List Char :=
  (canonicalize (pathJoin app rest)).getD (pathJoin app rest)

/-! ## The rewrite -/

def evidenceSection : List Char := "evidence".toList

def outDirKey : List Char := "outDir".toList

def webRunnerDirKey : List Char := "webRunnerDir".toList

/-- The whitespace a line starts with. -/
def indentOf (line : List Char) : List Char := line.takeWhile isWhitespace

/-- `str::trim_start`. -/
def trimStart (line : List Char) : List Char := line.dropWhile isWhitespace

/-- One turn of the loop of `isolate`: the flag after it and the line it writes. -/
def isolateLine (canonicalize : List Char → Option (List Char)) (app shardOut : List Char)
    (inEvidence : Bool) (line : List Char) : Bool × List Char :=
  if "evidence:".toList.isPrefixOf (trimStart line) then (true, line)
  else if inEvidence && "outDir:".toList.isPrefixOf (trimStart line) then
    (inEvidence, indentOf line ++ "outDir: ".toList ++ shardOut)
  else
    match "webRunnerDir:".toList.isPrefixOf? (trimStart line) with
    | some rest =>
      (inEvidence,
        indentOf line ++ "webRunnerDir: ".toList ++ absoluteDir canonicalize app (trim rest))
    | none => (inEvidence, line)

/-- The loop of `isolate` over the lines.  Nothing takes the flag back. -/
def isolateLines (canonicalize : List Char → Option (List Char)) (app shardOut : List Char) :
    Bool → List (List Char) → List (List Char)
  | _, [] => []
  | inEvidence, line :: lines =>
    let turn := isolateLine canonicalize app shardOut inEvidence line
    turn.2 :: isolateLines canonicalize app shardOut turn.1 lines

/-- `isolate`: the text of the shard's `reproit.yaml`. -/
def isolate (canonicalize : List Char → Option (List Char)) (app job : List Char) (seed : UInt32)
    (cfg : List Char) : List Char :=
  let shardOut := pathJoin (workDir app job seed) "runs".toList
  joinLines (isolateLines canonicalize app shardOut false (textLines cfg))

/-! ## The rewrite on settings -/

/-- What the loop makes of a key and its value. -/
def isolateEdit (canonicalize : List Char → Option (List Char)) (app shardOut : List Char) : Edit :=
  fun inEvidence key value =>
    if key = evidenceSection then (true, value)
    else if inEvidence ∧ key = outDirKey then (inEvidence, shardOut)
    else if key = webRunnerDirKey then (inEvidence, absoluteDir canonicalize app value)
    else (inEvidence, value)

section Texts

variable {canonicalize : List Char → Option (List Char)} {app job shardOut : List Char}

/-- The directory of every `webRunnerDir` among the entries can be written on a line. -/
def RunnersOnLines (canonicalize : List Char → Option (List Char)) (app : List Char)
    (es : List Entry) : Prop :=
  ∀ e ∈ es, e.key = webRunnerDirKey → OnLine isWhitespace (absoluteDir canonicalize app e.value)

/-! ## The rewrite on texts is the rewrite on settings -/

theorem isPrefixOf_key {k key : List Char} (hk : ':' ∉ k) (hkey : ':' ∉ key) (rest : List Char) :
    (k ++ [':']).isPrefixOf (key ++ ':' :: rest) = decide (key = k) := by
  rw [← List.isSome_isPrefixOf?_eq_isPrefixOf, isPrefixOf?_key hk hkey]
  split <;> simp_all

theorem evidence_colon : "evidence:".toList = evidenceSection ++ [':'] := by decide

theorem outDir_colon : "outDir:".toList = outDirKey ++ [':'] := by decide

theorem webRunnerDir_colon : "webRunnerDir:".toList = webRunnerDirKey ++ [':'] := by decide

/-- A line of the loop's is an entry. -/
theorem readEntry_of_isPrefixOf? {k line rest : List Char} (hk : ':' ∉ k)
    (hkey : notKey k = false) (h : (k ++ [':']).isPrefixOf? (trimStart line) = some rest) :
    ∃ e, readEntry isWhitespace line = some e ∧ e.key = k ∧ e.value = trim rest := by
  rw [List.isPrefixOf?_eq_some_iff_append_eq, List.append_assoc] at h
  exact readEntry_of_prefix hk hkey h.symm

theorem blank_of_mem_indentOf {line : List Char} : ∀ c ∈ indentOf line, isWhitespace c = true :=
  fun _ hc => List.mem_takeWhile_imp hc

theorem head_of_first {cs : List Char} {first : Char} (hfirst : cs.head? = some first)
    (hf : isWhitespace first = false) : ∀ c, cs.head? = some c → isWhitespace c = false := by
  intro c hc
  rw [hfirst, Option.some.injEq] at hc
  exact hc ▸ hf

/-- A line that is no entry stays. -/
theorem isolateLine_none {line : List Char} (inEvidence : Bool)
    (h : readEntry isWhitespace line = none) :
    isolateLine canonicalize app shardOut inEvidence line = (inEvidence, line) := by
  have hno : ∀ k, ':' ∉ k → notKey k = false →
      (k ++ [':']).isPrefixOf? (trimStart line) = none := by
    intro k hk hkey
    cases hprefix : (k ++ [':']).isPrefixOf? (trimStart line) with
    | none => rfl
    | some rest =>
      obtain ⟨e, hread, -⟩ := readEntry_of_isPrefixOf? hk hkey hprefix
      rw [h] at hread
      cases hread
  have hnot : ∀ k, ':' ∉ k → notKey k = false →
      (k ++ [':']).isPrefixOf (trimStart line) = false := by
    intro k hk hkey
    rw [← List.isSome_isPrefixOf?_eq_isPrefixOf, hno k hk hkey]
    rfl
  unfold isolateLine
  rw [evidence_colon, outDir_colon, webRunnerDir_colon, hnot _ (by decide) (by decide),
    hnot _ (by decide) (by decide), hno _ (by decide) (by decide), Bool.and_false]
  rfl

/-- An entry keeps its place and its key, and its value is what the edit makes of it. -/
theorem isolateLine_some {line : List Char} {e : Entry} (inEvidence : Bool)
    (hout : OnLine isWhitespace shardOut)
    (hrunner : e.key = webRunnerDirKey →
      OnLine isWhitespace (absoluteDir canonicalize app e.value))
    (h : readEntry isWhitespace line = some e) :
    (isolateLine canonicalize app shardOut inEvidence line).1 =
        (isolateEdit canonicalize app shardOut inEvidence e.key e.value).1 ∧
      readEntry isWhitespace (isolateLine canonicalize app shardOut inEvidence line).2 =
        some { e with
          value := (isolateEdit canonicalize app shardOut inEvidence e.key e.value).2 } := by
  obtain ⟨rest, hbody, hcolon, hkey, hindent, hvalue⟩ := readEntry_eq_some h
  obtain ⟨indent, key, value⟩ := e
  have htrim : trimStart line = key ++ ':' :: rest := hbody
  have htrimmed : value = trim rest := hvalue
  subst htrimmed
  have hwritten : ∀ k v, (∀ c, k.head? = some c → isWhitespace c = false) → ':' ∉ k →
      notKey k = false → Inked isWhitespace v →
      readEntry isWhitespace (indentOf line ++ k ++ ": ".toList ++ v) = some ⟨indent, k, v⟩ := by
    intro k v hhead hk hnot hv
    rw [readEntry_written blank_of_mem_indentOf (by decide) hhead hk hnot hv]
    exact congrArg some (congrArg (fun n => (⟨n, k, v⟩ : Entry)) hindent.symm)
  unfold isolateLine isolateEdit
  rw [evidence_colon, outDir_colon, webRunnerDir_colon, htrim, isPrefixOf_key (by decide) hcolon,
    isPrefixOf_key (by decide) hcolon, isPrefixOf?_key (by decide) hcolon]
  by_cases hevidence : key = evidenceSection
  · rw [if_pos (decide_eq_true hevidence), if_pos hevidence]
    exact ⟨rfl, h⟩
  rw [if_neg (by simpa using hevidence), if_neg hevidence]
  by_cases houtDir : inEvidence = true ∧ key = outDirKey
  · rw [if_pos (by simpa using houtDir), if_pos houtDir, houtDir.2]
    have htext : "outDir: ".toList = outDirKey ++ ": ".toList := by decide
    rw [htext, ← List.append_assoc]
    exact ⟨rfl, hwritten _ _ (head_of_first rfl (by decide)) (by decide) (by decide) hout.inked⟩
  rw [if_neg (by simpa using houtDir), if_neg houtDir]
  by_cases hdir : key = webRunnerDirKey
  · rw [if_pos hdir, if_pos hdir, hdir]
    have htext : "webRunnerDir: ".toList = webRunnerDirKey ++ ": ".toList := by decide
    rw [htext, ← List.append_assoc]
    exact ⟨rfl, hwritten _ _ (head_of_first rfl (by decide)) (by decide) (by decide)
      (hrunner hdir).inked⟩
  · rw [if_neg hdir, if_neg hdir]
    exact ⟨rfl, h⟩

theorem isolateLine_one_line {line : List Char} (inEvidence : Bool) (hout : '\n' ∉ shardOut)
    (hrunner : ∀ e, readEntry isWhitespace line = some e → e.key = webRunnerDirKey →
      OnLine isWhitespace (absoluteDir canonicalize app e.value))
    (hline : '\n' ∉ line) :
    '\n' ∉ (isolateLine canonicalize app shardOut inEvidence line).2 := by
  have hindent : '\n' ∉ indentOf line := fun h =>
    hline ((List.takeWhile_sublist isWhitespace).subset h)
  unfold isolateLine
  split
  · exact hline
  · split
    · simp [hindent, hout]
    · split
      · rename_i rest hprefix
        rw [webRunnerDir_colon] at hprefix
        obtain ⟨e, hread, hkey, hvalue⟩ :=
          readEntry_of_isPrefixOf? (by decide) (by decide) hprefix
        have hdir := hrunner e hread hkey
        rw [hvalue] at hdir
        simp [hindent, hdir.one_line]
      · exact hline

/-- The loop writes lines, and their entries are the edited ones. -/
theorem isolateLines_entries (hout : OnLine isWhitespace shardOut) (inEvidence : Bool)
    {lines : List (List Char)} (hlines : ∀ line ∈ lines, '\n' ∉ line)
    (hrunners : RunnersOnLines canonicalize app (lines.filterMap (readEntry isWhitespace))) :
    (∀ line ∈ isolateLines canonicalize app shardOut inEvidence lines, '\n' ∉ line) ∧
      (isolateLines canonicalize app shardOut inEvidence lines).filterMap
          (readEntry isWhitespace) =
        editEntries (isolateEdit canonicalize app shardOut) inEvidence
          (lines.filterMap (readEntry isWhitespace)) := by
  induction lines generalizing inEvidence with
  | nil => exact ⟨fun _ h => absurd h List.not_mem_nil, rfl⟩
  | cons line lines ih =>
    rw [List.forall_mem_cons] at hlines
    have hhead : ∀ e, readEntry isWhitespace line = some e → e.key = webRunnerDirKey →
        OnLine isWhitespace (absoluteDir canonicalize app e.value) := fun e hread =>
      hrunners e (List.mem_filterMap.2 ⟨line, List.mem_cons_self, hread⟩)
    have htail : RunnersOnLines canonicalize app (lines.filterMap (readEntry isWhitespace)) := by
      intro e he
      obtain ⟨l, hl, hread⟩ := List.mem_filterMap.1 he
      exact hrunners e (List.mem_filterMap.2 ⟨l, List.mem_cons_of_mem _ hl, hread⟩)
    obtain ⟨hwritten, hentries⟩ :=
      ih (isolateLine canonicalize app shardOut inEvidence line).1 hlines.2 htail
    refine ⟨List.forall_mem_cons.2
      ⟨isolateLine_one_line inEvidence hout.one_line hhead hlines.1, hwritten⟩, ?_⟩
    rw [isolateLines, List.filterMap_cons, List.filterMap_cons, hentries]
    cases hread : readEntry isWhitespace line with
    | none => rw [isolateLine_none inEvidence hread, hread]
    | some e =>
      obtain ⟨hflag, hentry⟩ := isolateLine_some inEvidence hout (hhead e hread) hread
      rw [hentry, hflag]
      rfl

/-- The settings of the copy. -/
theorem settings_isolate {seed : UInt32} {cfg : List Char}
    (hout : OnLine isWhitespace (reportsDir (workDir app job seed)))
    (hrunners : RunnersOnLines canonicalize app (entries isWhitespace cfg)) :
    settings isWhitespace (isolate canonicalize app job seed cfg) =
      editSettings (isolateEdit canonicalize app (reportsDir (workDir app job seed))) false
        (settings isWhitespace cfg) := by
  have hlines : ∀ line ∈ textLines cfg, '\n' ∉ line := newline_not_mem_textLines cfg
  have hread : (textLines cfg).filterMap (readEntry isWhitespace) = entries isWhitespace cfg :=
    entries_textLines (by decide) cfg
  have hentries : entries isWhitespace (isolate canonicalize app job seed cfg) =
      editEntries (isolateEdit canonicalize app (reportsDir (workDir app job seed))) false
        (entries isWhitespace cfg) := by
    obtain ⟨hwritten, hedited⟩ := isolateLines_entries hout false hlines (hread ▸ hrunners)
    show (splitLines (joinLines (isolateLines canonicalize app (reportsDir (workDir app job seed))
      false (textLines cfg)))).filterMap _ = _
    rw [splitLines_joinLines hwritten, hedited, hread]
  rw [settings, hentries, settingsBelow_editEntries]
  rfl

end Texts

/-! ## The directories of two shards -/

/-- `Path::is_absolute`. -/
def IsAbsolute (path : List Char) : Prop := path.head? = some '/'

/-- The directory of the reports, part by part.  Only `base` depends on the app. -/
theorem reportsDir_eq (app : List Char) :
    ∃ base, ∀ job seed, reportsDir (workDir app job seed) =
      base ++ (job ++ '/' :: uint32Chars seed) ++ "/runs".toList := by
  have happ : ∃ base, ∀ rest, pathJoin app ('.' :: rest) = base ++ '.' :: rest := by
    by_cases hbase : app = [] ∨ app.getLast? = some '/'
    · refine ⟨app, fun rest => ?_⟩
      rw [pathJoin, if_neg (by simp), if_pos hbase]
    · refine ⟨app ++ ['/'], fun rest => ?_⟩
      rw [pathJoin, if_neg (by simp), if_neg hbase, List.append_assoc]
      rfl
  obtain ⟨base, hjoin⟩ := happ
  refine ⟨base ++ ".reproit-cloud/".toList, fun job seed => ?_⟩
  have hwork : workDir app job seed =
      base ++ ".reproit-cloud/".toList ++ (job ++ '/' :: uint32Chars seed) := by
    rw [workDir, List.append_assoc, List.append_assoc]
    exact hjoin _
  -- the seed stands last, so the directory ends in a digit
  have hlast : ∃ c, (workDir app job seed).getLast? = some c ∧ c.isDigit = true := by
    have hne : uint32Chars seed ≠ [] := Nat.toDigits_ne_nil
    refine ⟨(uint32Chars seed).getLast hne, ?_, isDigit_of_mem_toDigits (List.getLast_mem hne)⟩
    rw [hwork, List.getLast?_append, List.getLast?_append, List.getLast?_cons,
      List.getLast?_eq_some_getLast hne]
    rfl
  obtain ⟨c, hc, hdigit⟩ := hlast
  rw [reportsDir, pathJoin, if_neg (by decide), if_neg, ← hwork]
  · rfl
  · rintro (hnil | hslash)
    · rw [hnil] at hc
      cases hc
    · rw [hc, Option.some.injEq] at hslash
      rw [hslash] at hdigit
      exact absurd hdigit (by decide)

/-- The directory of the reports tells the shard. -/
theorem reportsDir_inj {app job job' : List Char} {seed seed' : UInt32}
    (h : reportsDir (workDir app job seed) = reportsDir (workDir app job' seed')) :
    job = job' ∧ seed = seed' := by
  obtain ⟨base, hreports⟩ := reportsDir_eq app
  rw [hreports, hreports] at h
  have hshard := List.append_cancel_left (List.append_cancel_right h)
  have hslash : ∀ s : UInt32, '/' ∉ uint32Chars s := by
    intro s hmem
    exact absurd (isDigit_of_mem_toDigits hmem) (by decide)
  have hsplit := congrArg (rsplitOnce '/') hshard
  rw [rsplitOnce_append job (hslash seed), rsplitOnce_append job' (hslash seed'),
    Option.some.injEq, Prod.mk.injEq] at hsplit
  have hparse := congrArg parseUInt32 hsplit.2
  rw [parseUInt32_chars, parseUInt32_chars, Option.some.injEq] at hparse
  exact ⟨hsplit.1, hparse⟩

/-! ## When a shard is isolated -/

def outDirPath : List (List Char) := [evidenceSection, outDirKey]

/-- What the copy of a configuration should be: `evidence.outDir` is set to the
directory of the reports, `webRunnerDir` is absolute and everything else as before. -/
structure Isolated (canonicalize : List Char → Option (List Char)) (app reports : List Char)
    (before after : List Setting) : Prop where
  redirected : ∃ s ∈ after, s.1 = outDirPath
  to_reports : ∀ s ∈ after, s.1 = outDirPath → s.2 = reports
  others : after.filter (fun s => s.1 ≠ outDirPath) =
    (before.filter fun s => s.1 ≠ outDirPath).map fun s =>
      (s.1, if Setting.key s = webRunnerDirKey then absoluteDir canonicalize app s.2 else s.2)
  absolute : ∀ s ∈ after, Setting.key s = webRunnerDirKey → IsAbsolute s.2

/-- Below the first key `evidence`, every `outDir` is `evidence.outDir` or is the
directory of the reports already. -/
def NoStray (reports : List Char) : Bool → List Setting → Prop
  | _, [] => True
  | seen, s :: ss =>
    (seen = true → Setting.key s = outDirKey → s.1 = outDirPath ∨ s.2 = reports) ∧
      NoStray reports (seen || Setting.key s = evidenceSection) ss

/-- The configurations whose copy is isolated. -/
structure Rewritable (canonicalize : List Char → Option (List Char)) (app reports : List Char)
    (before : List Setting) : Prop where
  present : ∃ s ∈ before, s.1 = outDirPath
  no_stray : NoStray reports false before
  reports_line : OnLine isWhitespace reports
  runners : ∀ s ∈ before, Setting.key s = webRunnerDirKey →
    OnLine isWhitespace (absoluteDir canonicalize app s.2) ∧
      IsAbsolute (absoluteDir canonicalize app s.2)

section Settings

variable {canonicalize : List Char → Option (List Char)} {app reports : List Char}

theorem isolateEdit_fst (inEvidence : Bool) (key value : List Char) :
    (isolateEdit canonicalize app reports inEvidence key value).1 =
      (inEvidence || decide (key = evidenceSection)) := by
  unfold isolateEdit
  split
  · simp_all
  · split
    · simp_all
    · split <;> simp_all

theorem key_of_path {s : Setting} (h : s.1 = outDirPath) : Setting.key s = outDirKey := by
  rw [Setting.key, h]
  rfl

theorem evidence_ne_outDir : evidenceSection ≠ outDirKey := by decide

theorem evidence_ne_webRunnerDir : evidenceSection ≠ webRunnerDirKey := by decide

theorem outDir_ne_evidence : outDirKey ≠ evidenceSection := by decide

theorem outDir_ne_webRunnerDir : outDirKey ≠ webRunnerDirKey := by decide

theorem map_fst_editSettings (f : Edit) (flag : Bool) (ss : List Setting) :
    (editSettings f flag ss).map Prod.fst = ss.map Prod.fst := by
  induction ss generalizing flag with
  | nil => rfl
  | cons s ss ih => rw [editSettings, List.map_cons, List.map_cons, ih]

variable (canonicalize app) in
/-- A value other than that of `evidence.outDir` is kept or made absolute, unless it
is the value of a stray `outDir`. -/
theorem others_iff (seen : Bool) (ss : List Setting) :
    (editSettings (isolateEdit canonicalize app reports) seen ss).filter
        (fun s => s.1 ≠ outDirPath) =
      (ss.filter fun s => s.1 ≠ outDirPath).map (fun s =>
        (s.1, if Setting.key s = webRunnerDirKey then absoluteDir canonicalize app s.2 else s.2)) ↔
      NoStray reports seen ss := by
  induction ss generalizing seen with
  | nil => simp [editSettings, NoStray]
  | cons s ss ih =>
    rw [editSettings, NoStray, isolateEdit_fst, ← ih]
    by_cases hpath : s.1 = outDirPath
    · simp [hpath]
    · have hkept : (isolateEdit canonicalize app reports seen (Setting.key s) s.2).2 =
          (if Setting.key s = webRunnerDirKey then absoluteDir canonicalize app s.2 else s.2) ↔
          (seen = true → Setting.key s = outDirKey → s.1 = outDirPath ∨ s.2 = reports) := by
        unfold isolateEdit
        by_cases hevidence : Setting.key s = evidenceSection
        · simp [hevidence, evidence_ne_outDir, evidence_ne_webRunnerDir]
        by_cases houtDir : Setting.key s = outDirKey
        · rw [houtDir, if_neg outDir_ne_evidence, if_neg outDir_ne_webRunnerDir]
          cases seen <;> simp [outDir_ne_webRunnerDir, hpath, eq_comm]
        by_cases hrunner : Setting.key s = webRunnerDirKey
        · simp [hrunner, evidence_ne_webRunnerDir.symm, outDir_ne_webRunnerDir.symm]
        · simp [hevidence, houtDir, hrunner]
      simp only [hpath, List.filter_cons, ne_eq, not_false_eq_true, decide_true, if_true,
        List.map_cons, List.cons.injEq, Prod.mk.injEq, true_and, hkept]

/-- Below its section, `evidence.outDir` is set to the directory. -/
theorem to_reports_of_sheltered {seen : Bool} {ss : List Setting}
    (h : Sheltered outDirPath evidenceSection seen ss) :
    ∀ s ∈ editSettings (isolateEdit canonicalize app reports) seen ss, s.1 = outDirPath →
      s.2 = reports := by
  induction ss generalizing seen with
  | nil => exact fun _ h => absurd h List.not_mem_nil
  | cons s ss ih =>
    rw [editSettings, isolateEdit_fst]
    refine List.forall_mem_cons.2 ⟨fun hpath => ?_, ih h.2⟩
    have hseen : seen = true := h.1 hpath
    have hkey : Setting.key s = outDirKey := key_of_path hpath
    have hne : outDirKey ≠ evidenceSection := by decide
    simp [isolateEdit, hkey, hseen, hne]

theorem runnersOnLines_of_settings {cfg : List Char}
    (h : ∀ s ∈ settings isWhitespace cfg, Setting.key s = webRunnerDirKey →
      OnLine isWhitespace (absoluteDir canonicalize app s.2)) :
    RunnersOnLines canonicalize app (entries isWhitespace cfg) := by
  intro e he hkey
  obtain ⟨s, hs, hskey, hvalue⟩ := mem_settings_iff.2 ⟨e, he, rfl, rfl⟩
  rw [← hvalue]
  exact h s hs (hskey.trans hkey)

theorem exists_path_editSettings (f : Edit) (flag : Bool) (ss : List Setting)
    (path : List (List Char)) :
    (∃ s ∈ editSettings f flag ss, s.1 = path) ↔ ∃ s ∈ ss, s.1 = path := by
  have hpaths := map_fst_editSettings f flag ss
  have hmem := congrArg (fun l => path ∈ l) hpaths
  simpa only [List.mem_map, eq_iff_iff] using hmem

/-- A `webRunnerDir` of an isolated copy is the directory of one of the configuration's. -/
theorem runner_of_others {before after : List Setting}
    (h : after.filter (fun s => s.1 ≠ outDirPath) =
      (before.filter fun s => s.1 ≠ outDirPath).map fun s =>
        (s.1, if Setting.key s = webRunnerDirKey then absoluteDir canonicalize app s.2 else s.2))
    (value : List Char) :
    (∃ s ∈ after, Setting.key s = webRunnerDirKey ∧ s.2 = value) ↔
      ∃ s ∈ before, Setting.key s = webRunnerDirKey ∧
        absoluteDir canonicalize app s.2 = value := by
  have hpath : ∀ s : Setting, Setting.key s = webRunnerDirKey → s.1 ≠ outDirPath :=
    fun s hkey hout => outDir_ne_webRunnerDir ((key_of_path hout).symm.trans hkey)
  constructor
  · rintro ⟨s, hs, hkey, hvalue⟩
    have hmem : s ∈ after.filter (fun s => s.1 ≠ outDirPath) :=
      List.mem_filter.2 ⟨hs, decide_eq_true (hpath s hkey)⟩
    rw [h] at hmem
    obtain ⟨t, ht, rfl⟩ := List.mem_map.1 hmem
    have htkey : Setting.key t = webRunnerDirKey := hkey
    refine ⟨t, (List.mem_filter.1 ht).1, htkey, ?_⟩
    rw [← hvalue, if_pos htkey]
  · rintro ⟨t, ht, hkey, hvalue⟩
    have hmem : (t.1, value) ∈ after.filter (fun s => s.1 ≠ outDirPath) := by
      rw [h]
      refine List.mem_map.2 ⟨t, List.mem_filter.2 ⟨ht, decide_eq_true (hpath t hkey)⟩, ?_⟩
      rw [if_pos hkey, hvalue]
    exact ⟨_, (List.mem_filter.1 hmem).1, hkey, rfl⟩

/-- The copy of a shard is isolated when `evidence.outDir` is set, no `outDir` below the
first key `evidence` is a stray one, and the directories can be written on lines.  The
directories of two shards differ. -/
theorem isolated_iff (canonicalize : List Char → Option (List Char)) (app job : List Char)
    (seed : UInt32) (cfg : List Char) :
    (Isolated canonicalize app (reportsDir (workDir app job seed)) (settings isWhitespace cfg)
        (settings isWhitespace (isolate canonicalize app job seed cfg)) ↔
      Rewritable canonicalize app (reportsDir (workDir app job seed))
        (settings isWhitespace cfg)) ∧
    ∀ job' seed', (job', seed') ≠ (job, seed) →
      reportsDir (workDir app job' seed') ≠ reportsDir (workDir app job seed) := by
  refine ⟨⟨fun h => ?_, fun h => ?_⟩, fun job' seed' hne heq => hne ?_⟩
  · -- what the copy holds has been read from lines
    have hreports : OnLine isWhitespace (reportsDir (workDir app job seed)) := by
      obtain ⟨s, hs, hpath⟩ := h.redirected
      rw [← h.to_reports s hs hpath]
      exact onLine_of_mem_settings hs
    have hrunners : ∀ s ∈ settings isWhitespace cfg, Setting.key s = webRunnerDirKey →
        OnLine isWhitespace (absoluteDir canonicalize app s.2) ∧
          IsAbsolute (absoluteDir canonicalize app s.2) := by
      intro s hs hkey
      obtain ⟨t, ht, htkey, hvalue⟩ := (runner_of_others h.others _).2 ⟨s, hs, hkey, rfl⟩
      rw [← hvalue]
      exact ⟨onLine_of_mem_settings ht, h.absolute t ht htkey⟩
    have hafter := settings_isolate hreports
      (runnersOnLines_of_settings fun s hs hkey => (hrunners s hs hkey).1)
    have hpresent := h.redirected
    have hothers := h.others
    rw [hafter] at hpresent hothers
    exact ⟨(exists_path_editSettings _ _ _ _).1 hpresent, (others_iff canonicalize app _ _).1 hothers, hreports,
      hrunners⟩
  · have hafter := settings_isolate h.reports_line
      (runnersOnLines_of_settings fun s hs hkey => (h.runners s hs hkey).1)
    rw [hafter]
    have hothers := (others_iff canonicalize app _ _).2 h.no_stray
    refine ⟨(exists_path_editSettings _ _ _ _).2 h.present,
      to_reports_of_sheltered (sheltered_settings isWhitespace evidenceSection outDirKey cfg),
      hothers, fun s hs hkey => ?_⟩
    obtain ⟨t, ht, htkey, hvalue⟩ := (runner_of_others hothers s.2).1 ⟨s, hs, hkey, rfl⟩
    rw [← hvalue]
    exact (h.runners t ht htkey).2
  · obtain ⟨rfl, rfl⟩ := reportsDir_inj heq
    rfl

/-- A configuration without `evidence.outDir` gets none, and an `outDir` of a section
after `evidence` is redirected. -/
theorem not_isolated :
    let copied : List Char → List Setting := fun cfg =>
      settings isWhitespace (isolate (fun _ => none) "/srv/shop".toList "j".toList 7 cfg)
    let reports := reportsDir (workDir "/srv/shop".toList "j".toList 7)
    let unset := "evidence:\n  keep: 3\n".toList
    let stray := "evidence:\n  outDir: runs\nreplay:\n  outDir: cases\n".toList
    ¬ Isolated (fun _ => none) "/srv/shop".toList reports (settings isWhitespace unset)
        (copied unset) ∧
      ¬ Isolated (fun _ => none) "/srv/shop".toList reports (settings isWhitespace stray)
        (copied stray) := by
  intro copied reports unset stray
  constructor
  · intro h
    have hunset : ∀ s ∈ copied unset, s.1 ≠ outDirPath := by decide
    obtain ⟨s, hs, hpath⟩ := h.redirected
    exact hunset s hs hpath
  · intro h
    have hcopied : (copied stray).filter (fun s => s.1 ≠ outDirPath) =
        [(["evidence".toList], []), (["replay".toList], []),
          (["replay".toList, "outDir".toList], "/srv/shop/.reproit-cloud/j/7/runs".toList)] := by
      decide
    have hbefore : (settings isWhitespace stray).filter (fun s => s.1 ≠ outDirPath) =
        [(["evidence".toList], []), (["replay".toList], []),
          (["replay".toList, "outDir".toList], "cases".toList)] := by
      decide
    have hothers := h.others
    rw [hcopied, hbefore] at hothers
    revert hothers
    decide

end Settings

end ReproitCloud
