/-
  The lint gates: what CI lints (`lint_paths`), what the merge lints
  (`_lint_node_closure`) and what the interpreter runs are three readings of the
  same bytes.

  * `lintNodeClosure_iff`, `lintPaths_iff`: when each gate lets a set of files
    pass;
  * `lintGates_agree_iff`: the gates agree unless a file starts with a byte order
    mark, which only the merge drops;
  * `executed_lintsClean_iff`: what runs is clean unless a file declares a codec
    that reads another text than UTF-8, and that text is not clean.
-/
import ContinuoRuntime.Contract.Merge

namespace ContinuoRuntime

/-! ## Clean files -/

section
variable {L : Lang} {parser : PythonParser} {t : FileTree} {repoRoot : Path}

/-- A text that parses and has no violation. -/
def CleanText (parser : PythonParser) (text : Str) : Prop :=
  ∃ tree, parser.parseText text = .ok tree ∧ lintTree parser.isAlnum tree = []

/-- A file that is clean once a byte order mark is dropped. -/
def CleanFile (parser : PythonParser) (bytes : Bytes) : Prop :=
  ∃ text, utf8SigDecode bytes = some text ∧ CleanText parser text

/-- No violation is reported exactly for a clean text. -/
theorem lintSource_eq_nil_iff {source filename : Str} :
    lintSource parser source filename = .ok [] ↔ CleanText parser source := by
  unfold lintSource CleanText
  constructor
  · intro h
    split at h
    · cases h
    · cases h
    next tree htree => exact ⟨tree, htree, List.map_eq_nil_iff.1 (Except.ok.inj h)⟩
  · rintro ⟨tree, htree, hclean⟩
    rw [htree]
    dsimp only
    rw [hclean, List.map_nil]

/-- A traversal finds nothing exactly if every element does. -/
theorem mapM_flatten_eq_nil_iff {α β : Type} {f : α → Except Exc (List β)} {xs : List α} :
    (∃ ys, xs.mapM f = .ok ys ∧ ys.flatten = []) ↔ ∀ x ∈ xs, f x = .ok [] := by
  constructor
  · rintro ⟨ys, hys, hnil⟩ x hx
    obtain ⟨y, hy, hf⟩ := mem_mapM_of_mem hys hx
    rw [hf, List.flatten_eq_nil_iff.1 hnil y hy]
  · intro h
    refine ⟨xs.map fun _ => [], mapM_eq_ok.2 ?_, ?_⟩
    · rw [List.forall₂_map_right_iff, List.forall₂_same]
      exact h
    · rw [List.flatten_eq_nil_iff]
      intro y hy
      obtain ⟨_, _, rfl⟩ := List.mem_map.1 hy
      rfl

/-! ## The merge -/

theorem lintFile_eq_nil_iff {relation : Str} {file : Path × Bytes} :
    lintFile L parser repoRoot relation file = .ok [] ↔ repoRoot <+: file.1 ∧ CleanFile parser file.2 := by
  unfold lintFile Path.relativeTo CleanFile contractError
  split_ifs with hroot
  · dsimp only [bind, Except.bind]
    constructor
    · intro h
      split at h
      · cases h
      next text htext => exact ⟨hroot, text, htext, lintSource_eq_nil_iff.1 h⟩
    · rintro ⟨-, text, htext, hclean⟩
      rw [htext]
      exact lintSource_eq_nil_iff.2 hclean
  · exact ⟨fun h => (by cases h), fun h => absurd h.1 hroot⟩

/-- **The merge** lets files pass exactly if all are clean, and below the root. -/
theorem lintNodeClosure_iff {relation : Str} {files : List (Path × Bytes)} :
    lintNodeClosure L parser repoRoot relation files = .ok () ↔
      ∀ file ∈ files, repoRoot <+: file.1 ∧ CleanFile parser file.2 := by
  have hfound : lintNodeClosure L parser repoRoot relation files = .ok () ↔
      ∃ ys, files.mapM (lintFile L parser repoRoot relation) = .ok ys ∧ ys.flatten = [] := by
    unfold lintNodeClosure contractError
    rw [bind_eq_ok]
    refine exists_congr fun ys => and_congr_right fun _ => ?_
    split_ifs with hnil
    · exact ⟨fun h => (by cases h), fun h => absurd h hnil⟩
    · exact ⟨fun _ => not_not.1 hnil, fun _ => rfl⟩
  rw [hfound, mapM_flatten_eq_nil_iff]
  exact forall₂_congr fun _ _ => lintFile_eq_nil_iff

/-- Where the merge does not let files pass, it raises `ContractError`, or the parser
    failed with something else than `SyntaxError`. -/
theorem lintNodeClosure_error {relation : Str} {files : List (Path × Bytes)} {exc : Exc}
    (hroot : ∀ file ∈ files, repoRoot <+: file.1)
    (h : lintNodeClosure L parser repoRoot relation files = .error exc) :
    exc.cls = .contractError ∨ ∃ file ∈ files, ∃ text, utf8SigDecode file.2 = some text ∧
      parser.parseText text = .error (.other exc) := by
  rcases bind_eq_error.1 h with h | ⟨ys, -, h⟩
  · obtain ⟨file, hfile, hf⟩ := exists_of_mapM_eq_error h
    unfold lintFile Path.relativeTo contractError lintSource at hf
    rw [if_pos (hroot file hfile)] at hf
    dsimp only [bind, Except.bind] at hf
    split at hf
    · cases hf
      exact .inl rfl
    next text htext =>
      split at hf
      next exc' hexc =>
        cases hf
        exact .inr ⟨file, hfile, text, htext, hexc⟩
      · cases hf
      · cases hf
  · unfold contractError at h
    split_ifs at h
    cases h
    exact .inl rfl

/-! ## CI -/

section
variable (hbom : ∀ text, ∃ lineno msg, parser.parseText (0xFEFF :: text) = .error (.syntaxError lineno msg))
  (hnewlines : ∀ text, parser.parseText (universalNewlines text) = parser.parseText text)
include hbom hnewlines

omit hbom in
theorem cleanText_universalNewlines {text : Str} :
    CleanText parser (universalNewlines text) ↔ CleanText parser text := by
  unfold CleanText
  rw [hnewlines]

omit hnewlines in
theorem not_cleanText_bom (text : Str) : ¬ CleanText parser (0xFEFF :: text) := by
  rintro ⟨tree, htree, -⟩
  obtain ⟨lineno, msg, herr⟩ := hbom text
  rw [herr] at htree
  cases htree

theorem lintPath_eq_nil_iff {file : Path × Bytes} (hread : t.readBytes file.1 = .ok file.2) :
    lintPath parser t file.1 = .ok [] ↔ CleanFile parser file.2 ∧ ¬ bomBytes <+: file.2 := by
  have hpath : lintPath parser t file.1 = .ok [] ↔
      ∃ text, utf8Decode file.2 = some text ∧ CleanText parser text := by
    unfold lintPath FileTree.readText
    rw [hread]
    dsimp only
    cases hdec : utf8Decode file.2 with
    | none =>
      dsimp only
      rw [if_pos (.inr rfl)]
      exact ⟨fun h => (by cases h), fun ⟨_, h, _⟩ => (by cases h)⟩
    | some text =>
      dsimp only
      rw [lintSource_eq_nil_iff, cleanText_universalNewlines hnewlines]
      exact ⟨fun h => ⟨text, rfl, h⟩, fun ⟨_, heq, h⟩ => Option.some.inj heq ▸ h⟩
  rw [hpath]
  by_cases hp : bomBytes <+: file.2
  · obtain ⟨rest, hrest⟩ := hp
    rw [← hrest]
    constructor
    · rintro ⟨text, htext, hclean⟩
      rw [utf8Decode_bom] at htext
      obtain ⟨tail, -, rfl⟩ := Option.map_eq_some_iff.1 htext
      exact absurd hclean (not_cleanText_bom hbom tail)
    · rintro ⟨-, hno⟩
      exact absurd (List.prefix_append _ _) hno
  · rw [CleanFile, utf8SigDecode_of_not_prefix hp]
    exact ⟨fun h => ⟨h, hp⟩, fun h => h.1⟩

/-- **CI** lets files pass exactly if all are clean and none starts with a byte order
    mark. -/
theorem lintPaths_iff {files : List (Path × Bytes)}
    (hread : ∀ file ∈ files, t.readBytes file.1 = .ok file.2) :
    lintPaths parser t (files.map Prod.fst) = .ok [] ↔
      ∀ file ∈ files, CleanFile parser file.2 ∧ ¬ bomBytes <+: file.2 := by
  have hfind : ∀ file ∈ files, t.find file.1 = some (.file file.2) := by
    intro file hfile
    have hr := hread file hfile
    unfold FileTree.readBytes at hr
    split at hr
    next bytes hb => exact Except.ok.inj hr ▸ hb
    · cases hr
    · cases hr
  have htargets : (files.map Prod.fst).flatMap (filesToLint t) = files.map Prod.fst := by
    rw [List.flatMap_map, List.map_eq_flatMap]
    refine List.flatMap_congr fun file hfile => ?_
    rw [filesToLint, hfind file hfile]
  have hmissing : (files.map Prod.fst).flatMap (missingPath t) = [] := by
    rw [List.flatMap_map, List.flatMap_eq_nil_iff]
    intro file hfile
    rw [missingPath, hfind file hfile]
    rfl
  have hfound : lintPaths parser t (files.map Prod.fst) = .ok [] ↔
      ∃ ys, (files.map Prod.fst).mapM (lintPath parser t) = .ok ys ∧ ys.flatten = [] := by
    rw [lintPaths, htargets, hmissing, bind_eq_ok]
    refine exists_congr fun ys => and_congr_right fun _ => ?_
    rw [List.nil_append]
    exact ⟨Except.ok.inj, congrArg Except.ok⟩
  rw [hfound, mapM_flatten_eq_nil_iff, List.forall_mem_map]
  exact forall₂_congr fun file hfile => lintPath_eq_nil_iff hbom hnewlines (hread file hfile)

end

/-! ## The gates agree -/

/-- **The lint gates agree** exactly if no file starts with a byte order mark or some
    file is not clean anyway; and where the merge fails, it raises `ContractError`,
    or what the parser raised. -/
theorem lintGates_agree_iff (L : Lang) (parser : PythonParser) (t : FileTree) (repoRoot : Path)
    (relation : Str) (files : List (Path × Bytes))
    (hbom : ∀ text, ∃ lineno msg, parser.parseText (0xFEFF :: text) = .error (.syntaxError lineno msg))
    (hnewlines : ∀ text, parser.parseText (universalNewlines text) = parser.parseText text)
    (hroot : ∀ file ∈ files, repoRoot <+: file.1)
    (hread : ∀ file ∈ files, t.readBytes file.1 = .ok file.2) :
    ((lintPaths parser t (files.map Prod.fst) = .ok [] ↔
        lintNodeClosure L parser repoRoot relation files = .ok ()) ↔
      (∀ file ∈ files, ¬ bomBytes <+: file.2) ∨ ∃ file ∈ files, ¬ CleanFile parser file.2) ∧
    ∀ exc, lintNodeClosure L parser repoRoot relation files = .error exc →
      exc.cls = .contractError ∨ ∃ file ∈ files, ∃ text, utf8SigDecode file.2 = some text ∧
        parser.parseText text = .error (.other exc) := by
  refine ⟨?_, fun exc h => lintNodeClosure_error hroot h⟩
  rw [lintPaths_iff hbom hnewlines hread, lintNodeClosure_iff]
  constructor
  · intro hagree
    by_cases hclean : ∀ file ∈ files, CleanFile parser file.2
    · exact .inl fun file hfile => (hagree.2 (fun f hf => ⟨hroot f hf, hclean f hf⟩) file hfile).2
    · push Not at hclean
      exact .inr hclean
  · intro h
    constructor
    · intro hci file hfile
      exact ⟨hroot file hfile, (hci file hfile).1⟩
    · intro hmerge file hfile
      refine ⟨(hmerge file hfile).2, ?_⟩
      rcases h with hno | ⟨dirty, hdirty, hnot⟩
      · exact hno file hfile
      · exact absurd (hmerge dirty hdirty).2 hnot

end

/-! ## Line by line -/

theorem return_notMem_universalNewlines (text : Str) : ch '\r' ∉ universalNewlines text := by
  have hne : ch '\r' ≠ ch '\n' := by decide
  fun_induction universalNewlines text with
  | case1 => exact List.not_mem_nil
  | case2 => simp [hne]
  | case3 c hc => simpa using Ne.symm hc
  | case4 s ih => simp [hne, ih]
  | case5 d s hd ih => simp [hne, ih]
  | case6 c d s hc ih => simp [Ne.symm hc, ih]

theorem universalNewlines_of_notMem : ∀ {text : Str}, ch '\r' ∉ text → universalNewlines text = text
  | [], _ => rfl
  | [c], h => by rw [universalNewlines, if_neg fun hc => h (by simp [hc])]
  | c :: d :: text, h => by
    rw [universalNewlines, if_neg fun hc => h (by simp [hc]),
      universalNewlines_of_notMem fun hmem => h (List.mem_cons_of_mem _ hmem)]

/-- Comments, and lines that import one name. -/
def parseLine (line : Str × ℕ) : Except ParseError (List Ast) :=
  if line.1 = [] ∨ line.1.head? = some (ch '#') then .ok []
  else if (py "import ").isPrefixOf line.1 then .ok [.imports (line.2 + 1) [⟨line.1.drop 7, none⟩]]
  else .error (.syntaxError (decimal (line.2 + 1)) (py "invalid syntax"))

/-- The module of such lines. -/
def parseLines (text : Str) : Except ParseError Ast := do
  let statements ← ((universalNewlines text).splitOn (ch '\n')).zipIdx.mapM parseLine
  .ok (.scope [] statements.flatten [])

theorem parseLines_newlines (text : Str) : parseLines (universalNewlines text) = parseLines text := by
  unfold parseLines
  rw [universalNewlines_of_notMem (return_notMem_universalNewlines text)]

theorem universalNewlines_bom (text : Str) : universalNewlines (0xFEFF :: text) = 0xFEFF :: universalNewlines text := by
  have hne : (0xFEFF : CodePoint) ≠ ch '\r' := by decide
  cases text with
  | nil => rfl
  | cons d text => rw [universalNewlines, if_neg hne]

/-- A line does not start with a byte order mark. -/
theorem parseLines_bom (text : Str) : ∃ lineno msg, parseLines (0xFEFF :: text) = .error (.syntaxError lineno msg) := by
  have hne : ((0xFEFF : CodePoint) == ch '\n') = false := by decide
  obtain ⟨line, lines, hlines⟩ :=
    List.exists_cons_of_ne_nil (List.splitOnP_ne_nil (· == ch '\n') (universalNewlines text))
  have hsplit : (universalNewlines (0xFEFF :: text)).splitOn (ch '\n') = (0xFEFF :: line) :: lines := by
    rw [universalNewlines_bom, List.splitOn, List.splitOnP_cons_eq_if_modifyHead, hlines, hne]
    rfl
  refine ⟨decimal 1, py "invalid syntax", ?_⟩
  unfold parseLines
  rw [hsplit, List.zipIdx_cons, List.mapM_cons]
  rfl

/-- The text of bytes that stand for one character each. -/
def latin1 (bytes : Bytes) : Str := bytes.map fun b => Fin.ofNat _ b.toNat

/-- A comment under UTF-8; under the codec it declares, `+AAo-` ends the line. -/
def recodedScript : Bytes := ascii (py "#coding:utf-7\n#+AAo-import duckdb")

/-- The codec that a file declares, on the bytes of `recodedScript` and on ASCII. -/
def decodeDeclared (bytes : Bytes) : Except ParseError Str :=
  if bytes = recodedScript then .ok (py "#coding:utf-7\n#\nimport duckdb") else .ok (latin1 bytes)

def lineParser : PythonParser where
  parseBytes bytes := decodeDeclared bytes >>= parseLines
  parseText := parseLines
  isAlnum := importLineParser.isAlnum
  decodeDetail := importLineParser.decodeDetail

/-- A repository with these files. -/
def filesTree (files : List (Str × Bytes)) : FileTree :=
  .dir [(py "app", .dir (files.map fun file => (file.1, .file file.2)))]

def filePaths (files : List (Str × Bytes)) : List (Path × Bytes) :=
  files.map fun file => ([py "app", file.1], file.2)

/-- A clean file, one that imports a driver, and a clean one behind a byte order mark. -/
def mixedFiles : List (Str × Bytes) := [(py "a.py", ascii (py "# helpers\nimport os\n")),
  (py "b.py", ascii (py "import os\r\nimport duckdb\r\n")), (py "c.py", bomBytes ++ ascii (py "import sys\n"))]

/-- The gates agree on the three, which neither lets pass. -/
theorem lintGates_agree_mixed :
    ((lintPaths lineParser (filesTree mixedFiles) ((filePaths mixedFiles).map Prod.fst) = .ok [] ↔
        lintNodeClosure plainLang lineParser appRoot (py "s.t") (filePaths mixedFiles) = .ok ()) ↔
      (∀ file ∈ filePaths mixedFiles, ¬ bomBytes <+: file.2) ∨
        ∃ file ∈ filePaths mixedFiles, ¬ CleanFile lineParser file.2) ∧
    ∀ exc, lintNodeClosure plainLang lineParser appRoot (py "s.t") (filePaths mixedFiles) = .error exc →
      exc.cls = .contractError ∨ ∃ file ∈ filePaths mixedFiles, ∃ text, utf8SigDecode file.2 = some text ∧
        lineParser.parseText text = .error (.other exc) :=
  lintGates_agree_iff plainLang lineParser (filesTree mixedFiles) appRoot (py "s.t") (filePaths mixedFiles)
    parseLines_bom parseLines_newlines (by decide +kernel) (by decide +kernel)

/-- A file behind a byte order mark, and a clean one. -/
def bomFiles : List (Str × Bytes) := [(py "a.py", bomBytes ++ ascii (py "import sys\n")),
  (py "b.py", ascii (py "import os\n"))]

/-- **A byte order mark** passes the merge, and CI reports it. -/
theorem lintGates_disagree_bom :
    lintNodeClosure plainLang lineParser appRoot (py "s.t") (filePaths bomFiles) = .ok () ∧
      lintPaths lineParser (filesTree bomFiles) ((filePaths bomFiles).map Prod.fst) =
        .ok [py "/app/a.py:1: syntax error: invalid syntax"] ∧
      ∀ file ∈ filePaths bomFiles, (filesTree bomFiles).readBytes file.1 = .ok file.2 :=
  ⟨rfl, rfl, by decide +kernel⟩

/-! ## What runs -/

section
variable (L : Lang) (parser : PythonParser) (t : FileTree) (repoRoot : Path)

/-- A file that runs for a node of the directory has these bytes: its script, or a
    member of the closure. -/
def Executed (dir : ContractDir) (bytes : Bytes) : Prop :=
  ∃ nodes node path closure, dir.nodes L = .ok nodes ∧ node ∈ nodes ∧ node.kind ≠ .pythonCsv ∧
    resolveScriptPath L t repoRoot node.script node.relation = .ok path ∧
    resolveClosure L.reprStr t parser path repoRoot = some (.ok closure) ∧
    ∃ file ∈ path :: closure, t.readBytes file = .ok bytes

end

section
variable {L : Lang} {parser : PythonParser} {t : FileTree} {repoRoot : Path}

/-- **What is hashed is clean**: the script and the members of the closure. -/
theorem scriptHashInputs_clean {node : Node} {inputs : Bytes × List Bytes} {path : Path}
    {closure : List Path} (h : scriptHashInputs L parser t repoRoot node = .ok inputs)
    (hpath : resolveScriptPath L t repoRoot node.script node.relation = .ok path)
    (hclosure : resolveClosure L.reprStr t parser path repoRoot = some (.ok closure))
    {file : Path} (hfile : file ∈ path :: closure) {bytes : Bytes} (hread : t.readBytes file = .ok bytes) :
    CleanFile parser bytes := by
  obtain ⟨path', hpath', h⟩ := bind_eq_ok.1 h
  obtain rfl := Except.ok.inj (hpath.symm.trans hpath')
  obtain ⟨scriptBytes, hbytes, h⟩ := bind_eq_ok.1 h
  obtain ⟨closure', hclosure', h⟩ := bind_eq_ok.1 h
  obtain rfl : closure = closure' := by
    have hget := (Option.some_get (resolveClosure_isSome path repoRoot)).symm.trans (congrArg some hclosure')
    exact Except.ok.inj (Option.some.inj (hclosure.symm.trans hget))
  obtain ⟨members, hmembers, h⟩ := bind_eq_ok.1 h
  obtain ⟨⟨⟩, hlint, -⟩ := bind_eq_ok.1 h
  have hall := lintNodeClosure_iff.1 hlint
  have hmem : (file, bytes) ∈ (path, scriptBytes) :: closure.zip members := by
    rcases List.mem_cons.1 hfile with rfl | hfile
    · rw [hread] at hbytes
      cases hbytes
      exact List.mem_cons_self
    · obtain ⟨i, hi, rfl⟩ := List.getElem_of_mem hfile
      have hforall := mapM_eq_ok.1 hmembers
      have hi' : i < members.length := hforall.length_eq ▸ hi
      have hget := hforall.get hi hi'
      rw [List.get_eq_getElem, List.get_eq_getElem, hread] at hget
      cases hget
      refine List.mem_cons_of_mem _ (List.mem_iff_getElem.2 ⟨i, by simp [hi, hi'], by simp⟩)
  exact (hall _ hmem).2

/-- **What a wire contract is built from is clean.** -/
theorem cleanFile_of_executed {S : Stack} {dir : ContractDir} {service : Str} {doc : WireContract}
    (h : buildWireContract L parser t repoRoot S dir service = .ok doc) {bytes : Bytes}
    (hexec : Executed L parser t repoRoot dir bytes) : CleanFile parser bytes := by
  obtain ⟨nodes, node, path, closure, hnodes, hnode, hkind, hpath, hclosure, file, hfile, hread⟩ := hexec
  obtain ⟨loaded, hloaded, h⟩ := bind_eq_ok.1 h
  obtain rfl := Except.ok.inj (hnodes.symm.trans (loaded_nodes hloaded))
  obtain ⟨wireNodes, hwire, -⟩ := bind_eq_ok.1 h
  obtain ⟨p, hp, rfl⟩ := List.mem_map.1 hnode
  obtain ⟨entry, -, hentry⟩ := mem_mapM_of_mem hwire hp
  obtain ⟨inputs, hinputs, -⟩ := buildWireNode_eq_ok.1 hentry
  exact scriptHashInputs_clean (scriptHashInputs_of_kind hkind hinputs) hpath hclosure hfile hread

/-- **What runs is clean** exactly if every file that declares a codec under which it
    reads otherwise than as UTF-8 is clean under that codec. -/
theorem executed_lintsClean_iff (L : Lang) (parser : PythonParser) (t : FileTree) (repoRoot : Path)
    (S : Stack) (dir : ContractDir) (service : Str) (doc : WireContract) (decode : Bytes → Except ParseError Str)
    (hdecode : ∀ bytes, parser.parseBytes bytes = decode bytes >>= parser.parseText)
    (h : buildWireContract L parser t repoRoot S dir service = .ok doc) :
    (∀ bytes, Executed L parser t repoRoot dir bytes → ∀ tree, parser.parseBytes bytes = .ok tree →
        lintTree parser.isAlnum tree = []) ↔
      ∀ bytes, Executed L parser t repoRoot dir bytes → ∀ text, decode bytes = .ok text →
        utf8SigDecode bytes ≠ some text → ∀ tree, parser.parseText text = .ok tree →
          lintTree parser.isAlnum tree = [] := by
  constructor
  · intro hclean bytes hexec text htext _ tree htree
    refine hclean bytes hexec tree ?_
    rw [hdecode, bind_eq_ok]
    exact ⟨text, htext, htree⟩
  · intro hrecoded bytes hexec tree htree
    rw [hdecode, bind_eq_ok] at htree
    obtain ⟨text, htext, htree⟩ := htree
    by_cases hsame : utf8SigDecode bytes = some text
    · obtain ⟨text', htext', tree', htree', hclean⟩ := cleanFile_of_executed h hexec
      obtain rfl := Option.some.inj (hsame.symm.trans htext')
      obtain rfl := Except.ok.inj (htree.symm.trans htree')
      exact hclean
    · exact hrecoded bytes hexec text htext hsame tree htree

end

/-- What runs for a script with two helpers is clean. -/
theorem executed_lintsClean_pair :
    (∀ bytes, Executed plainLang importLineParser (pairTree [] helperText) appRoot (apiDir emptySql) bytes →
        ∀ tree, importLineParser.parseBytes bytes = .ok tree → lintTree importLineParser.isAlnum tree = []) ↔
      ∀ bytes, Executed plainLang importLineParser (pairTree [] helperText) appRoot (apiDir emptySql) bytes →
        ∀ text, Except.ok (latin1 bytes) = (.ok text : Except ParseError Str) →
          utf8SigDecode bytes ≠ some text → ∀ tree, importLineParser.parseText text = .ok tree →
            lintTree importLineParser.isAlnum tree = [] :=
  executed_lintsClean_iff plainLang importLineParser (pairTree [] helperText) appRoot smallStack (apiDir emptySql)
    (py "demo") (pairContract (py "demo")) (fun bytes => .ok (latin1 bytes)) (fun _ => rfl)
    (pairTree_contract _ _ _ _)

/-! ## A recoded script -/

/-- A repository with one script of these bytes. -/
def scriptTree (bytes : Bytes) : FileTree := filesTree [(py "x.py", bytes)]

/-- **A driver import that no gate sees**: the wire contract is built, and the script
    imports a warehouse driver. -/
theorem executed_not_clean : ∃ doc,
    buildWireContract plainLang lineParser (scriptTree recodedScript) appRoot smallStack (apiDir emptySql)
      (py "demo") = .ok doc ∧
    Executed plainLang lineParser (scriptTree recodedScript) appRoot (apiDir emptySql) recodedScript ∧
    ∃ tree, lineParser.parseBytes recodedScript = .ok tree ∧
      lintTree lineParser.isAlnum tree = [(3, py "forbidden warehouse driver import 'duckdb'")] := by
  have hinputs : nodeHashInputs plainLang lineParser (scriptTree recodedScript) appRoot (apiNode []) =
      .ok (recodedScript, []) := rfl
  refine ⟨_, apiDir_contract hinputs, ?_, ?_⟩
  · exact ⟨_, apiNode [], [py "app", py "x.py"], [], apiDir_nodes _ _, List.mem_singleton.2 rfl, by decide, rfl,
      rfl, _, List.mem_singleton.2 rfl, rfl⟩
  · exact ⟨.scope [] [.imports 3 [⟨py "duckdb", none⟩]] [], rfl, rfl⟩

end ContinuoRuntime
