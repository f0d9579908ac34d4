import AlgoBot.Core.Writes
import AlgoBot.Python.Value

/-!
# Project changes

`open_project_change_pr` checks each change of a report against GitHub and the
local checkout, creates a branch, writes the files and opens a draft pull request.
The validation is of the path as it is written, and the contents API decodes it. A
created file is answered by 201 and an updated one by 200, and the call for a
write takes 201 only; an answer that there is no such file has a body, which the
check takes for a file. The local file is read with its line ends translated.

* `puts_ok`: the writes succeed exactly if they are answered and create their files.
* `call_cases`: the four ways a call ends.
* `update_raises`: a call that updates a file raises and leaves its branch.
* `all_or_nothing_iff`: when a call opens the pull request of its changes or leaves no
  branch, and opens it if it can.
* `update_leaves_branch`: the update of a file that is the same on both sides.
-/

namespace AlgoBot.Brokers.ProjectChanges

open AlgoBot.Core AlgoBot.Python

/-! ## Paths -/

/-- `path.parts`, without the root of an absolute path. -/
def parts (relative : String) : List String :=
  (split '/' relative).filter fun part => part ≠ "" && part ≠ "."

def is_absolute (relative : String) : Bool := relative.toList.head? = some '/'

/-- `path.name`. -/
def name (relative : String) : String := (parts relative).getLast?.getD ""

/-- `path.suffix`: from the last dot on, unless that is the first or the last character. -/
def suffix (relative : String) : String :=
  let characters := (name relative).toList
  let ending := (characters.reverse.takeWhile (· ≠ '.')).reverse
  if ending.length + 1 < characters.length ∧ ending ≠ [] then String.ofList ('.' :: ending) else ""

def SOURCE_SUFFIXES : List String :=
  [".py", ".html", ".htm", ".js", ".jsx", ".mjs", ".cjs", ".ts", ".tsx", ".css", ".scss", ".sass",
    ".less", ".md", ".mdx", ".json", ".jsonc", ".yml", ".yaml", ".toml", ".ini", ".cfg", ".conf",
    ".txt", ".sql", ".sh", ".bash", ".xml", ".svg", ".graphql", ".gql", ".prisma", ".proto",
    ".properties", ".env.example", ".dockerfile", ".tf", ".hcl", ".service", ".conf"]

def DENIED_PATH_PARTS : List String :=
  [".git", ".venv", "venv", "node_modules", "__pycache__", "secrets", "credentials",
    "private_keys", "private", "vault", "vendor", "media", "staticfiles", "dist", "build",
    "coverage"]

def DENIED_FILENAMES : List String :=
  ["secrets.json", "credentials.json", "id_rsa", "id_ed25519", "known_hosts", ".npmrc", ".pypirc"]

/-- The names that need no suffix. -/
def SOURCE_NAMES : List String :=
  ["dockerfile", "makefile", "procfile", "justfile", ".gitignore", ".dockerignore",
    ".editorconfig", ".prettierrc", ".eslintrc", "requirements.txt", "pyproject.toml",
    "package.json", "tsconfig.json", "webpack.config.js", "vite.config.js"]

/-- `_is_allowed_path`, which does not use `allow_new`. -/
def is_allowed_path (h : Host) (relative : String) : Bool :=
  if is_absolute relative || (parts relative).contains ".." || (parts relative).isEmpty then false
  else if (parts relative).any fun part => DENIED_PATH_PARTS.contains (h.lower part) then false
  else if DENIED_FILENAMES.contains (h.lower (name relative)) || ".env".toList.isPrefixOf (name relative).toList
  then false
  else SOURCE_SUFFIXES.contains (h.lower (suffix relative)) ||
    SOURCE_NAMES.contains (h.lower (name relative))

/-! ## What the API addresses -/

/-- The place of a file in a tree: the bytes of its names. -/
abbrev Key := List (List UInt8)

def bytes (s : String) : List UInt8 := s.toUTF8.toList

/-- The place that a path names. -/
def key (relative : String) : Key := (parts relative).map bytes

def hexDigit (b : UInt8) : Option UInt8 :=
  if 48 ≤ b ∧ b ≤ 57 then some (b - 48)
  else if 65 ≤ b ∧ b ≤ 70 then some (b - 55)
  else if 97 ≤ b ∧ b ≤ 102 then some (b - 87)
  else none

/-- Percent-decoding. -/
def unquote : List UInt8 → List UInt8
  | [] => []
  | [b] => [b]
  | [b, c] => [b, c]
  | b :: c :: d :: rest =>
    match hexDigit c, hexDigit d with
    | some high, some low =>
      if b = 37 then (16 * high + low) :: unquote rest else b :: unquote (c :: d :: rest)
    | _, _ => b :: unquote (c :: d :: rest)

/-- The names of a path without its dot segments. -/
def resolved (segments : List (List UInt8)) : Key :=
  segments.foldl (fun key segment =>
    if segment = [] ∨ segment = [46] then key
    else if segment = [46, 46] then key.dropLast
    else key ++ [segment]) []

/-- The place that `contents/{relative}` addresses: a query and a fragment are no part of it. -/
def address (relative : String) : Key :=
  resolved ((unquote ((bytes relative).takeWhile fun b => b ≠ 63 && b ≠ 35)).splitOn 47)

/-! ## The validation of the agent -/

/-- A local path. -/
inductive Local
  | missing
  | text (content : String)
  | directory
  /-- A file that cannot be read as text. -/
  | unreadable
  deriving DecidableEq, Repr

/-- The checkout: what is at the parts of a path. -/
abbrev Checkout := List String → Local

structure Change where
  path : String
  content : String
  deriving DecidableEq, Repr

/-- The length of the texts that are shown. -/
def shownPath (relative : String) : String := take 160 relative

/-- One turn of the loop of `generate`, after the paths that have been seen. -/
def validateItem (h : Host) (secret : String → Bool) (inventory : List String)
    (checkout : Checkout) (seen : List String) (item : Value) : Except String Change :=
  match item with
  | .dict fields =>
    let relative := textOr h (Dict.get fields "path") ""
    match Dict.get fields "content" with
    | .str content =>
      if 200000 < content.length then
        .error "Generated file content is missing or exceeds 200,000 characters."
      else if is_allowed_path h relative = false then
        .error ("Generated path is outside the safe source allowlist: " ++ shownPath relative)
      else if seen.contains relative then
        .error "The generated change set contains duplicate paths."
      else if inventory.contains relative = false ∧ checkout (parts relative) ≠ .missing then
        .error ("New-file path already exists but was not indexed: " ++ relative)
      else if secret content then
        .error ("Generated content for " ++ relative ++ " resembles a hard-coded secret.")
      else .ok ⟨relative, content⟩
    | _ => .error "Generated file content is missing or exceeds 200,000 characters."
  | _ => .error "A generated file change was malformed."

def validateItems (h : Host) (secret : String → Bool) (inventory : List String)
    (checkout : Checkout) : List String → List Value → Except String (List Change)
  | _, [] => .ok []
  | seen, item :: items => do
    let change ← validateItem h secret inventory checkout seen item
    let changes ← validateItems h secret inventory checkout (change.path :: seen) items
    return change :: changes

/-- The changes of `generate`. -/
def validated (h : Host) (secret : String → Bool) (inventory : List String) (checkout : Checkout)
    (changes : Value) : Except String (List Change) :=
  match changes with
  | .list items => validateItems h secret inventory checkout [] items
  | _ => .error "The AI provider returned a malformed change set."

/-! ## GitHub -/

inductive Entry
  | file (text : String)
  | directory
  /-- A file that is no text. -/
  | binary
  deriving DecidableEq, Repr

abbrev Tree := Key → Option Entry

/-- How a request is answered: as the API answers it, or so that the call raises, when the request
may have been carried out. -/
inductive Answer
  | normal
  | unreachable (done : Bool)
  | refused (status : ℕ) (done : Bool)
  deriving DecidableEq, Repr

/-- The request has been carried out. -/
def Answer.done : Answer → Bool
  | .normal => true
  | .unreachable done => done
  | .refused _ done => done

def statusError (method path : String) (status : ℕ) : String :=
  "GitHub API " ++ method ++ " " ++ path ++ " returned HTTP " ++ toString status ++
    "; verify permissions and source freshness."

/-- `call`, as far as it raises on its own. -/
def Answer.check (answer : Answer) (method path : String) : Except String Unit :=
  match answer with
  | .normal => .ok ()
  | .unreachable _ =>
    .error "GitHub could not be reached while preparing the review-only project PR."
  | .refused status _ => .error (statusError method path status)

/-- What GitHub has: the tree of the default branch, and whether the answer that there is no such
file has no body. -/
structure Remote where
  default_branch : String
  base : Tree
  bodyless : Bool

/-- An entry of `prepared`; a blob is known by its text. -/
structure Prepared where
  path : String
  content : String
  sha : Option String
  deriving DecidableEq, Repr

/-- What the contents API does with a file of a branch, and the status of its answer. -/
def writeFile (tree : Tree) (p : Prepared) : ℕ × Tree :=
  let written := Function.update tree (address p.path) (some (.file p.content))
  match tree (address p.path), p.sha with
  | none, none => (201, written)
  | some (.file text), some sha => if text = sha then (200, written) else (409, tree)
  | _, _ => (422, tree)

/-! ## The pull request -/

/-- Universal newlines. -/
def newlines : List Char → List Char
  | '\r' :: '\n' :: rest => '\n' :: newlines rest
  | c :: rest => (if c = '\r' then '\n' else c) :: newlines rest
  | [] => []

/-- `read_text` of a file with a text. -/
def read_text (text : String) : String := String.ofList (newlines text.toList)

/-- The comparison of a file of the default branch with the local one. -/
def compareLocal (relative remote_content : String) (target : Local) : Except String Unit :=
  match target with
  | .missing | .directory =>
    .error ("Local source for " ++ relative ++ " is missing; refusing a stale overwrite.")
  | .unreadable =>
    .error ("Local source for " ++ relative ++ " is unreadable; refusing a stale overwrite.")
  | .text text =>
    if remote_content ≠ read_text text then
      .error ("GitHub's default-branch version of " ++ relative ++
        " differs from this runtime checkout. " ++
        "Refresh the deployment source before retrying; no project PR was opened.")
    else .ok ()

/-- What is known of a target that is not on GitHub; a body is taken for a file without content. -/
def checkAbsent (remote : Remote) (c : Change) (target : Local) : Except String Prepared :=
  if remote.bodyless then
    if target ≠ .missing then
      .error ("GitHub does not contain indexed source " ++ c.path ++
        "; refusing to guess whether it is a new file.")
    else .ok ⟨c.path, c.content, none⟩
  else do
    compareLocal c.path "" target
    return ⟨c.path, c.content, none⟩

/-- One turn of the preflight, once the contents have been answered. -/
def prepare (remote : Remote) (checkout : Checkout) (c : Change) : Except String Prepared :=
  match remote.base (address c.path) with
  | none => checkAbsent remote c (checkout (parts c.path))
  -- the answer for a directory is a list
  | some .directory => .error "'list' object has no attribute 'get'"
  | some .binary =>
    .error ("Could not safely verify the current GitHub version of " ++ c.path ++ ".")
  | some (.file text) => do
    compareLocal c.path text (checkout (parts c.path))
    return ⟨c.path, c.content, some text⟩

/-- The preflight, from request `k` on. -/
def preflight (h : Host) (answers : ℕ → Answer) (remote : Remote) (checkout : Checkout) :
    ℕ → List Change → Except String (List Prepared)
  | _, [] => .ok []
  | k, c :: changes => do
    if is_allowed_path h c.path = false then
      .error ("Project change failed the safe path/content gate: " ++ shownPath c.path)
    (answers k).check "GET" ("contents/" ++ c.path ++ "?ref=" ++ remote.default_branch)
    let p ← prepare remote checkout c
    let prepared ← preflight h answers remote checkout (k + 1) changes
    return p :: prepared

/-- The writes, from request `k` on, with the tree of the branch. -/
def puts (answers : ℕ → Answer) : ℕ → List Prepared → Tree → Except String Unit × Tree
  | _, [], tree => (.ok (), tree)
  | k, p :: prepared, tree =>
    match (answers k).check "PUT" ("contents/" ++ p.path) with
    | .error e => (.error e, if (answers k).done then (writeFile tree p).2 else tree)
    | .ok () =>
      if (writeFile tree p).1 = 201 then puts answers (k + 1) prepared (writeFile tree p).2
      else (.error (statusError "PUT" ("contents/" ++ p.path) (writeFile tree p).1),
        (writeFile tree p).2)

/-- A value that has a slice. -/
def sliceable : Value → Bool
  | .str _ => true
  | .list _ => true
  | _ => false

/-- The texts of the report that go into the pull request. -/
def hasTexts (report : Dict) : Bool :=
  sliceable (Dict.getD report "rationale" (.list [])) &&
    sliceable (Dict.getD report "validation_plan" (.list []))

/-- What a call leaves at GitHub: the tree of its branch, and its pull request. -/
structure Left where
  branch : Option Tree
  pull : Bool

/-- What is made ready before there is a branch. -/
def preparedChanges (h : Host) (answers : ℕ → Answer) (remote : Remote) (checkout : Checkout)
    (changes : List Change) : Except String (List Prepared) := do
  (answers 0).check "GET" ""
  (answers 1).check "GET" ("git/ref/heads/" ++ remote.default_branch)
  preflight h answers remote checkout 2 changes

/-- The branch, the writes and the pull request, from request `k` on. -/
def publish (answers : ℕ → Answer) (remote : Remote) (report : Dict) (k : ℕ)
    (prepared : List Prepared) : Except String Unit × Left :=
  match (answers k).check "POST" "git/refs" with
  | .error e => (.error e, ⟨if (answers k).done then some remote.base else none, false⟩)
  | .ok () =>
    match puts answers (k + 1) prepared remote.base with
    | (.error e, tree) => (.error e, ⟨some tree, false⟩)
    | (.ok (), tree) =>
      if hasTexts report = false then (.error "object is not subscriptable", ⟨some tree, false⟩)
      else
        match (answers (k + 1 + prepared.length)).check "POST" "pulls" with
        | .error e => (.error e, ⟨some tree, (answers (k + 1 + prepared.length)).done⟩)
        | .ok () => (.ok (), ⟨some tree, true⟩)

/-- `open_project_change_pr` for the changes of a report, with the answers to its requests in their
order. -/
def open_project_change_pr (h : Host) (answers : ℕ → Answer) (remote : Remote)
    (checkout : Checkout) (report : Dict) (changes : List Change) : Except String Unit × Left :=
  if changes = [] then
    (.error "The project manager produced no safe file changes; no PR was opened.", ⟨none, false⟩)
  else
    match preparedChanges h answers remote checkout changes with
    | .error e => (.error e, ⟨none, false⟩)
    | .ok prepared => publish answers remote report (changes.length + 2) prepared

/-! ## Answers -/

section Answers

variable {answers : ℕ → Answer} {k m : ℕ}

/-- The requests from `k` on are answered as the API answers them, as many as `m`. -/
def Answered (answers : ℕ → Answer) (k m : ℕ) : Prop :=
  ∀ i, k ≤ i → i < k + m → answers i = .normal

/-- A check that passes is followed by the rest. -/
theorem then_ok {β : Type} {x : Except String Unit} {f : Unit → Except String β} {b : β} :
    (x >>= f) = .ok b ↔ x = .ok () ∧ f () = .ok b := by
  rw [bind_ok]
  exact ⟨fun ⟨(), hx, hf⟩ => ⟨hx, hf⟩, fun ⟨hx, hf⟩ => ⟨(), hx, hf⟩⟩

theorem check_ok {answer : Answer} {method path : String} :
    answer.check method path = .ok () ↔ answer = .normal := by
  cases answer <;> simp [Answer.check]

theorem answered_zero : Answered answers k 0 := by
  intro i hlow hhigh
  omega

theorem answered_succ :
    Answered answers k (m + 1) ↔ answers k = .normal ∧ Answered answers (k + 1) m := by
  constructor
  · intro h
    exact ⟨h k le_rfl (by omega), fun i hlow hhigh => h i (by omega) (by omega)⟩
  · rintro ⟨hfirst, hrest⟩ i hlow hhigh
    rcases hlow.eq_or_lt with rfl | hlt
    · exact hfirst
    · exact hrest i hlt (by omega)

theorem answered_add {n : ℕ} :
    Answered answers k (m + n) ↔ Answered answers k m ∧ Answered answers (k + m) n := by
  constructor
  · intro h
    exact ⟨fun i hlow hhigh => h i hlow (by omega), fun i hlow hhigh => h i (by omega) (by omega)⟩
  · rintro ⟨hfirst, hrest⟩ i hlow hhigh
    by_cases hi : i < k + m
    · exact hfirst i hlow hi
    · exact hrest i (by omega) (by omega)

/-- All requests of a call: those before the branch, that for the branch, and the later ones. -/
theorem answered_all {n : ℕ} :
    Answered answers 0 (2 * n + 4) ↔
      Answered answers 0 (n + 2) ∧ answers (n + 2) = .normal ∧
        Answered answers (n + 3) (n + 1) := by
  have hsplit : 2 * n + 4 = (n + 2) + ((n + 1) + 1) := by omega
  rw [hsplit, answered_add, Nat.zero_add, answered_succ (k := n + 2)]

end Answers

/-! ## The preflight -/

section Preflight

variable {h : Host} {answers : ℕ → Answer} {remote : Remote} {checkout : Checkout}

/-- A change whose target is on neither side, as far as the checks can tell. -/
def Fresh (remote : Remote) (checkout : Checkout) (c : Change) : Prop :=
  remote.base (address c.path) = none ∧
    checkout (parts c.path) = if remote.bodyless then .missing else .text ""

/-- A change whose target has one text on both sides. -/
def Current (remote : Remote) (checkout : Checkout) (c : Change) : Prop :=
  ∃ text, checkout (parts c.path) = .text text ∧
    remote.base (address c.path) = some (.file (read_text text))

theorem newlines_eq_nil {cs : List Char} : newlines cs = [] ↔ cs = [] := by
  constructor
  · intro hnil
    unfold newlines at hnil
    split at hnil
    · cases hnil
    · cases hnil
    · rfl
  · rintro rfl
    rfl

theorem read_text_eq_empty {text : String} : read_text text = "" ↔ text = "" := by
  rw [read_text, ← String.toList_inj, String.toList_ofList, ← @String.toList_inj text]
  exact newlines_eq_nil

theorem compareLocal_ok {relative content : String} {target : Local} :
    compareLocal relative content target = .ok () ↔
      ∃ text, target = .text text ∧ content = read_text text := by
  cases target with
  | missing => simp [compareLocal]
  | directory => simp [compareLocal]
  | unreadable => simp [compareLocal]
  | text text => simp [compareLocal]

theorem checkAbsent_ok {c : Change} {target : Local} {p : Prepared} :
    checkAbsent remote c target = .ok p ↔
      (target = if remote.bodyless then .missing else .text "") ∧
        p = ⟨c.path, c.content, none⟩ := by
  unfold checkAbsent
  cases remote.bodyless with
  | true => by_cases hmissing : target = .missing <;> simp [hmissing, eq_comm]
  | false =>
    simp only [Bool.false_eq_true, if_false, then_ok, compareLocal_ok]
    constructor
    · rintro ⟨⟨text, htext, hempty⟩, hp⟩
      obtain rfl := read_text_eq_empty.mp hempty.symm
      exact ⟨htext, (Except.ok.inj hp).symm⟩
    · rintro ⟨htext, rfl⟩
      exact ⟨⟨"", htext, (read_text_eq_empty.mpr rfl).symm⟩, rfl⟩

theorem prepare_ok {c : Change} {p : Prepared} :
    prepare remote checkout c = .ok p ↔
      Fresh remote checkout c ∧ p = ⟨c.path, c.content, none⟩ ∨
        ∃ text, checkout (parts c.path) = .text text ∧
          remote.base (address c.path) = some (.file (read_text text)) ∧
            p = ⟨c.path, c.content, some (read_text text)⟩ := by
  unfold prepare Fresh
  cases remote.base (address c.path) with
  | none => simp [checkAbsent_ok]
  | some entry =>
    cases entry with
    | directory => simp
    | binary => simp
    | file content =>
      simp only [then_ok, compareLocal_ok]
      constructor
      · rintro ⟨⟨text, htext, rfl⟩, hp⟩
        exact .inr ⟨text, htext, rfl, (Except.ok.inj hp).symm⟩
      · rintro (⟨⟨hnone, -⟩, -⟩ | ⟨text, htext, hsame, rfl⟩)
        · cases hnone
        · obtain rfl : content = read_text text := by simpa using hsame
          exact ⟨⟨text, htext, rfl⟩, rfl⟩

theorem preflight_ok {k : ℕ} {changes : List Change} {prepared : List Prepared} :
    preflight h answers remote checkout k changes = .ok prepared ↔
      (∀ c ∈ changes, is_allowed_path h c.path = true) ∧ Answered answers k changes.length ∧
        List.Forall₂ (fun c p => prepare remote checkout c = .ok p) changes prepared := by
  induction changes generalizing k prepared with
  | nil =>
    constructor
    · intro hok
      obtain rfl := Except.ok.inj hok
      exact ⟨by simp, answered_zero, .nil⟩
    · rintro ⟨-, -, hall⟩
      cases hall
      rfl
  | cons c changes ih =>
    rw [preflight, List.length_cons, answered_succ, List.forall_mem_cons]
    cases hallowed : is_allowed_path h c.path with
    | false => simp [bind, Except.bind]
    | true =>
      simp only [Bool.true_eq_false, if_false, true_and, then_ok, check_ok]
      constructor
      · rintro ⟨hfirst, hturn⟩
        obtain ⟨p, hp, hbody⟩ := bind_ok.mp hturn
        obtain ⟨rest, htail, hall⟩ := bind_ok.mp hbody
        obtain ⟨hpaths, hanswers, hrest⟩ := ih.mp htail
        obtain rfl := Except.ok.inj hall
        exact ⟨hpaths, ⟨hfirst, hanswers⟩, .cons hp hrest⟩
      · rintro ⟨hpaths, ⟨hfirst, hanswers⟩, hall⟩
        cases hall with
        | cons hp hrest =>
          have hrest := ih.mpr ⟨hpaths, hanswers, hrest⟩
          exact ⟨hfirst, bind_ok.mpr ⟨_, hp, bind_ok.mpr ⟨_, hrest, rfl⟩⟩⟩

theorem preparedChanges_ok {changes : List Change} {prepared : List Prepared} :
    preparedChanges h answers remote checkout changes = .ok prepared ↔
      (∀ c ∈ changes, is_allowed_path h c.path = true) ∧
        Answered answers 0 (changes.length + 2) ∧
        List.Forall₂ (fun c p => prepare remote checkout c = .ok p) changes prepared := by
  rw [preparedChanges]
  simp only [then_ok, check_ok, preflight_ok, answered_succ]
  constructor
  · rintro ⟨hzero, hone, hpaths, hanswers, hall⟩
    exact ⟨hpaths, ⟨hzero, hone, hanswers⟩, hall⟩
  · rintro ⟨hpaths, ⟨hzero, hone, hanswers⟩, hall⟩
    exact ⟨hzero, hone, hpaths, hanswers, hall⟩

end Preflight

/-! ## The writes -/

section Writes

variable {answers : ℕ → Answer}

/-- What a write puts where. -/
def Prepared.cell (p : Prepared) : Key × Entry := (address p.path, .file p.content)

/-- A created file, and nothing else, is answered by 201. -/
theorem writeFile_created {tree : Tree} {p : Prepared} :
    (writeFile tree p).1 = 201 ↔ p.sha = none ∧ tree (address p.path) = none := by
  unfold writeFile
  cases tree (address p.path) with
  | none => cases p.sha <;> simp
  | some entry =>
    cases entry with
    | directory => simp
    | binary => simp
    | file text =>
      cases p.sha with
      | none => simp
      | some sha => by_cases hsame : text = sha <;> simp [hsame]

theorem writeFile_new {tree : Tree} {p : Prepared} (hsha : p.sha = none)
    (hplace : tree (address p.path) = none) :
    writeFile tree p = (201, Function.update tree p.cell.1 (some p.cell.2)) := by
  simp [writeFile, hsha, hplace, Prepared.cell]

/-- Writing one cell leaves the other places empty that were so. -/
theorem empty_update {tree : Tree} {p : Prepared} {place : Key} :
    Function.update tree p.cell.1 (some p.cell.2) place = none ↔
      place ≠ p.cell.1 ∧ tree place = none := by
  by_cases hplace : place = p.cell.1
  · rw [hplace, Function.update_self]
    simp
  · rw [Function.update_of_ne hplace]
    simp [hplace]

/-- The later writes find their places empty, if they were so and the first one has another. -/
theorem empty_after {tree : Tree} {p : Prepared} {prepared : List Prepared} :
    (∀ q ∈ prepared, q.sha = none ∧
        Function.update tree p.cell.1 (some p.cell.2) (address q.path) = none) ↔
      (∀ q ∈ prepared, q.sha = none ∧ tree (address q.path) = none) ∧
        p.cell.1 ∉ (prepared.map Prepared.cell).map Prod.fst := by
  simp only [empty_update, List.map_map, List.mem_map, Function.comp_apply, not_exists, not_and]
  constructor
  · intro h
    exact ⟨fun q hq => ⟨(h q hq).1, (h q hq).2.2⟩, fun q hq => (h q hq).2.1⟩
  · rintro ⟨hempty, hother⟩ q hq
    exact ⟨(hempty q hq).1, hother q hq, (hempty q hq).2⟩

/-- The writes succeed, if they are answered and create their files. -/
theorem puts_ok {k : ℕ} {prepared : List Prepared} {tree tree' : Tree} :
    puts answers k prepared tree = (.ok (), tree') ↔
      Answered answers k prepared.length ∧
        (∀ p ∈ prepared, p.sha = none ∧ tree (address p.path) = none) ∧
        ((prepared.map Prepared.cell).map Prod.fst).Nodup ∧
        writeAll (prepared.map Prepared.cell) tree = tree' := by
  induction prepared generalizing k tree with
  | nil => simp [puts, answered_zero]
  | cons p prepared ih =>
    rw [puts, List.length_cons, answered_succ, List.forall_mem_cons, List.map_cons, List.map_cons,
      List.nodup_cons, writeAll_cons]
    by_cases hanswer : answers k = .normal
    · rw [hanswer]
      simp only [Answer.check, true_and]
      -- a write that is answered is of a new file, or the call raises with it done
      by_cases hnew : p.sha = none ∧ tree (address p.path) = none
      · rw [writeFile_new hnew.1 hnew.2]
        simp only [if_true, hnew, true_and, ih, and_self, empty_after]
        constructor
        · rintro ⟨hanswers, ⟨hempty, hother⟩, hnodup, htree⟩
          exact ⟨hanswers, hempty, ⟨hother, hnodup⟩, htree⟩
        · rintro ⟨hanswers, hempty, ⟨hother, hnodup⟩, htree⟩
          exact ⟨hanswers, ⟨hempty, hother⟩, hnodup, htree⟩
      · have hstatus : (writeFile tree p).1 ≠ 201 := fun h => hnew (writeFile_created.mp h)
        simp [hstatus, hnew]
    · have hraise : ∀ path, (answers k).check "PUT" path ≠ .ok () :=
        fun path h => hanswer (check_ok.mp h)
      cases hcheck : (answers k).check "PUT" ("contents/" ++ p.path) with
      | ok u => exact absurd hcheck (hraise _)
      | error e => simp [hanswer]

/-- What the requests after the one for the branch need. -/
def Creates (answers : ℕ → Answer) (base : Tree) (report : Dict) (k : ℕ)
    (cells : List (Key × Entry)) : Prop :=
  Answered answers k (cells.length + 1) ∧ (∀ cell ∈ cells, base cell.1 = none) ∧
    (cells.map Prod.fst).Nodup ∧ hasTexts report = true

/-- The request for the branch fails, or a later one does, or all files are created. -/
theorem publish_cases (answers : ℕ → Answer) (remote : Remote) (report : Dict) (k : ℕ)
    (prepared : List Prepared) :
    (answers k ≠ .normal ∧ ∃ e, publish answers remote report k prepared =
        (.error e, ⟨if (answers k).done then some remote.base else none, false⟩)) ∨
      (answers k = .normal ∧
        ¬((∀ p ∈ prepared, p.sha = none) ∧
          Creates answers remote.base report (k + 1) (prepared.map Prepared.cell)) ∧
        ∃ e tree pull, publish answers remote report k prepared = (.error e, ⟨some tree, pull⟩)) ∨
      (answers k = .normal ∧ (∀ p ∈ prepared, p.sha = none) ∧
        Creates answers remote.base report (k + 1) (prepared.map Prepared.cell) ∧
        publish answers remote report k prepared =
          (.ok (), ⟨some (writeAll (prepared.map Prepared.cell) remote.base), true⟩)) := by
  unfold publish
  cases hbranch : (answers k).check "POST" "git/refs" with
  | error e =>
    left
    refine ⟨fun hnormal => ?_, e, rfl⟩
    rw [check_ok.mpr hnormal] at hbranch
    cases hbranch
  | ok u =>
    -- from here on there is a branch
    right
    have hnormal : answers k = .normal := check_ok.mp hbranch
    rcases hputs : puts answers (k + 1) prepared remote.base with ⟨result, tree⟩
    cases result with
    | error e =>
      left
      refine ⟨hnormal, ?_, e, tree, false, rfl⟩
      rintro ⟨hsha, hanswers, hempty, hnodup, -⟩
      rw [List.length_map, answered_add] at hanswers
      rw [List.forall_mem_map] at hempty
      have hok := puts_ok.mpr ⟨hanswers.1, fun p hp => ⟨hsha p hp, hempty p hp⟩, hnodup, rfl⟩
      rw [hputs] at hok
      cases hok
    | ok u =>
      obtain ⟨hwrites, hnew, hnodup, rfl⟩ := puts_ok.mp hputs
      by_cases htexts : hasTexts report = false
      · left
        refine ⟨hnormal, ?_, _, _, _, if_pos htexts⟩
        rintro ⟨-, -, -, -, hthere⟩
        rw [htexts] at hthere
        cases hthere
      simp only [if_neg htexts]
      cases hpull : (answers (k + 1 + prepared.length)).check "POST" "pulls" with
      | error e =>
        left
        refine ⟨hnormal, ?_, e, _, _, rfl⟩
        rintro ⟨-, hanswers, -⟩
        rw [List.length_map, answered_add, answered_succ] at hanswers
        rw [check_ok.mpr hanswers.2.1] at hpull
        cases hpull
      | ok u =>
        right
        refine ⟨hnormal, fun p hp => (hnew p hp).1, ⟨?_, ?_, hnodup, by simpa using htexts⟩, rfl⟩
        · rw [List.length_map, answered_add, answered_succ]
          exact ⟨hwrites, check_ok.mp hpull, answered_zero⟩
        · rw [List.forall_mem_map]
          exact fun p hp => (hnew p hp).2

end Writes

/-! ## The call -/

section Call

variable {h : Host} {answers : ℕ → Answer} {remote : Remote} {checkout : Checkout} {report : Dict}
  {changes : List Change}

/-- What the call writes: the contents at the addresses of the paths. -/
def addressed (changes : List Change) : List (Key × Entry) :=
  changes.map fun c => (address c.path, .file c.content)

/-- What the changes say: the contents at the places that the paths name. -/
def named (changes : List Change) : List (Key × Entry) :=
  changes.map fun c => (key c.path, .file c.content)

/-- The call gets as far as the branch. -/
structure Checked (answers : ℕ → Answer) (remote : Remote) (checkout : Checkout)
    (changes : List Change) : Prop where
  changed : changes ≠ []
  answered : Answered answers 0 (changes.length + 2)
  targets : ∀ c ∈ changes, Fresh remote checkout c ∨ Current remote checkout c

/-- The files are new and at different addresses, the requests for them are answered, and the report
has its texts. -/
structure Created (answers : ℕ → Answer) (remote : Remote) (checkout : Checkout) (report : Dict)
    (changes : List Change) : Prop where
  answered : Answered answers (changes.length + 3) (changes.length + 1)
  fresh : ∀ c ∈ changes, Fresh remote checkout c
  distinct : (changes.map fun c => address c.path).Nodup
  texts : hasTexts report = true

theorem prepared_exists :
    (∃ prepared, List.Forall₂ (fun c p => prepare remote checkout c = .ok p) changes prepared) ↔
      ∀ c ∈ changes, Fresh remote checkout c ∨ Current remote checkout c := by
  induction changes with
  | nil => simp
  | cons c changes ih =>
    rw [List.forall_mem_cons, ← ih]
    constructor
    · rintro ⟨_, _ | ⟨hp, hrest⟩⟩
      refine ⟨?_, _, hrest⟩
      rcases prepare_ok.mp hp with ⟨hfresh, -⟩ | ⟨text, hlocal, hbase, -⟩
      · exact .inl hfresh
      · exact .inr ⟨text, hlocal, hbase⟩
    · rintro ⟨hfresh | ⟨text, hlocal, hbase⟩, prepared, hrest⟩
      · exact ⟨_, .cons (prepare_ok.mpr (.inl ⟨hfresh, rfl⟩)) hrest⟩
      · exact ⟨_, .cons (prepare_ok.mpr (.inr ⟨text, hlocal, hbase, rfl⟩)) hrest⟩

theorem prepared_cells {prepared : List Prepared}
    (hall : List.Forall₂ (fun c p => prepare remote checkout c = .ok p) changes prepared) :
    prepared.map Prepared.cell = addressed changes := by
  induction hall with
  | nil => rfl
  | cons hp hrest ih =>
    rw [addressed, List.map_cons, List.map_cons, ih]
    rcases prepare_ok.mp hp with ⟨-, rfl⟩ | ⟨text, -, -, rfl⟩ <;> rfl

/-- The entries without a blob are those of new files. -/
theorem prepared_fresh {prepared : List Prepared}
    (hall : List.Forall₂ (fun c p => prepare remote checkout c = .ok p) changes prepared) :
    (∀ p ∈ prepared, p.sha = none) ↔ ∀ c ∈ changes, Fresh remote checkout c := by
  induction hall with
  | nil => simp
  | @cons c p changes prepared hp hrest ih =>
    rw [List.forall_mem_cons, List.forall_mem_cons, ih]
    refine and_congr_left fun _ => ?_
    rcases prepare_ok.mp hp with ⟨hfresh, rfl⟩ | ⟨text, -, hbase, rfl⟩
    · exact ⟨fun _ => hfresh, fun _ => rfl⟩
    · constructor
      · intro hnone
        cases hnone
      · rintro ⟨hnone, -⟩
        rw [hbase] at hnone
        cases hnone

theorem created_iff :
    Created answers remote checkout report changes ↔
      (∀ c ∈ changes, Fresh remote checkout c) ∧
        Creates answers remote.base report (changes.length + 3) (addressed changes) := by
  have hplaces : (addressed changes).map Prod.fst = changes.map fun c => address c.path := by
    simp [addressed, Function.comp_def]
  have hlength : (addressed changes).length = changes.length := by simp [addressed]
  rw [Creates, hplaces, hlength]
  constructor
  · rintro ⟨hanswers, hfresh, hdistinct, htexts⟩
    refine ⟨hfresh, hanswers, ?_, hdistinct, htexts⟩
    rw [addressed, List.forall_mem_map]
    exact fun c hc => (hfresh c hc).1
  · rintro ⟨hfresh, hanswers, -, hdistinct, htexts⟩
    exact ⟨hanswers, hfresh, hdistinct, htexts⟩

/-- How a call ends, for changes that the allow-list admits. -/
theorem call_cases (hallowed : ∀ c ∈ changes, is_allowed_path h c.path = true) :
    (¬ Checked answers remote checkout changes ∧
      ∃ e, open_project_change_pr h answers remote checkout report changes = (.error e, ⟨none, false⟩)) ∨
    (Checked answers remote checkout changes ∧
      ((answers (changes.length + 2) ≠ .normal ∧
        ∃ e, open_project_change_pr h answers remote checkout report changes =
          (.error e, ⟨if (answers (changes.length + 2)).done then some remote.base else none,
            false⟩)) ∨
      (answers (changes.length + 2) = .normal ∧ ¬ Created answers remote checkout report changes ∧
        ∃ e tree pull, open_project_change_pr h answers remote checkout report changes =
          (.error e, ⟨some tree, pull⟩)) ∨
      (answers (changes.length + 2) = .normal ∧ Created answers remote checkout report changes ∧
        open_project_change_pr h answers remote checkout report changes =
          (.ok (), ⟨some (writeAll (addressed changes) remote.base), true⟩)))) := by
  unfold open_project_change_pr
  by_cases hchanged : changes = []
  · left
    rw [if_pos hchanged]
    exact ⟨fun hchecked => hchecked.changed hchanged, _, rfl⟩
  rw [if_neg hchanged]
  cases hprepared : preparedChanges h answers remote checkout changes with
  | error e =>
    left
    refine ⟨fun hchecked => ?_, e, rfl⟩
    obtain ⟨prepared, hall⟩ := prepared_exists.mpr hchecked.targets
    rw [preparedChanges_ok.mpr ⟨hallowed, hchecked.answered, hall⟩] at hprepared
    cases hprepared
  | ok prepared =>
    right
    obtain ⟨-, hanswers, hall⟩ := preparedChanges_ok.mp hprepared
    refine ⟨⟨hchanged, hanswers, prepared_exists.mp ⟨prepared, hall⟩⟩, ?_⟩
    have hcases := publish_cases answers remote report (changes.length + 2) prepared
    rw [prepared_cells hall, prepared_fresh hall] at hcases
    rcases hcases with hbranch | ⟨hnormal, hnot, hlater⟩ | ⟨hnormal, hfresh, hcreates, hok⟩
    · exact .inl hbranch
    · exact .inr (.inl ⟨hnormal, fun hcreated => hnot (created_iff.mp hcreated), hlater⟩)
    · exact .inr (.inr ⟨hnormal, created_iff.mpr ⟨hfresh, hcreates⟩, hok⟩)

/-- A call that updates a file raises and leaves its branch. -/
theorem update_raises (hallowed : ∀ c ∈ changes, is_allowed_path h c.path = true)
    (hchecked : Checked answers remote checkout changes) {c : Change} (hc : c ∈ changes)
    (hcurrent : Current remote checkout c) (hnormal : answers (changes.length + 2) = .normal) :
    ∃ e tree pull, open_project_change_pr h answers remote checkout report changes =
      (.error e, ⟨some tree, pull⟩) := by
  rcases call_cases hallowed with
    ⟨hnot, -⟩ | ⟨-, ⟨hbranch, -⟩ | ⟨-, -, hrun⟩ | ⟨-, hcreated, -⟩⟩
  · exact absurd hchecked hnot
  · exact absurd hnormal hbranch
  · exact hrun
  · obtain ⟨text, -, hbase⟩ := hcurrent
    have hnone := (hcreated.fresh c hc).1
    rw [hbase] at hnone
    cases hnone

end Call

/-! ## All or nothing -/

section AllOrNothing

variable (h : Host) (answers : ℕ → Answer) (remote : Remote) (checkout : Checkout) (report : Dict)
  (changes : List Change)

/-- The target of a change is missing on both sides, or has one text on both. -/
def Matches (c : Change) : Prop :=
  remote.base (key c.path) = none ∧ checkout (parts c.path) = .missing ∨
    ∃ text, remote.base (key c.path) = some (.file text) ∧ checkout (parts c.path) = .text text

/-- A call opens the pull request of its changes or leaves no branch, and opens it if the targets
match and all requests are answered. -/
structure AllOrNothing : Prop where
  opened : (open_project_change_pr h answers remote checkout report changes).1 = .ok () →
    ∃ tree, (open_project_change_pr h answers remote checkout report changes).2 = ⟨some tree, true⟩ ∧
      tree = writeAll (named changes) remote.base ∧
      ∀ place, tree place ≠ remote.base place →
        ∃ c ∈ changes, is_allowed_path h c.path = true ∧ key c.path = place
  nothing : ∀ e, (open_project_change_pr h answers remote checkout report changes).1 = .error e →
    (open_project_change_pr h answers remote checkout report changes).2.branch = none
  succeeds : Answered answers 0 (2 * changes.length + 4) →
    (∀ c ∈ changes, Matches remote checkout c) →
      (open_project_change_pr h answers remote checkout report changes).1 = .ok ()

/-- Each content is written where one of the changes wants it. -/
def Placed (changes : List Change) : Prop :=
  ∀ c ∈ changes, ∃ c' ∈ changes, key c'.path = address c.path ∧ c'.content = c.content

variable {h answers remote checkout report changes}

/-- Paths that the API addresses as they are written. -/
theorem placed_of_addresses (haddress : ∀ c ∈ changes, address c.path = key c.path) :
    Placed changes :=
  fun c hc => ⟨c, hc, (haddress c hc).symm, rfl⟩

theorem addressed_subset_iff : addressed changes ⊆ named changes ↔ Placed changes := by
  unfold addressed named Placed
  rw [List.subset_def, List.forall_mem_map]
  simp only [List.mem_map, Prod.mk.injEq, Entry.file.injEq]

/-- The call writes what its changes say, if it writes each content where it is wanted. -/
theorem writeAll_addressed_iff (hcreated : Created answers remote checkout report changes) :
    writeAll (addressed changes) remote.base = writeAll (named changes) remote.base ↔
      Placed changes := by
  obtain ⟨-, -, hempty, hnodup, -⟩ := created_iff.mp hcreated
  rw [writeAll_eq_iff (by simp [addressed, named]) hnodup hempty, addressed_subset_iff]

theorem validateItem_allowed {secret : String → Bool} {inventory seen : List String}
    {indexed : Checkout} {item : Value} {c : Change}
    (hitem : validateItem h secret inventory indexed seen item = .ok c) :
    is_allowed_path h c.path = true := by
  cases item with
  | dict fields =>
    rw [validateItem] at hitem
    split at hitem
    · split at hitem
      · cases hitem
      · split at hitem
        · cases hitem
        · next hpath =>
          -- the checks after that of the path only refuse
          split at hitem
          · cases hitem
          · split at hitem
            · cases hitem
            · split at hitem
              · cases hitem
              · obtain rfl := Except.ok.inj hitem
                simpa using hpath
    · cases hitem
  | _ => cases hitem

theorem validateItems_allowed {secret : String → Bool} {inventory seen : List String}
    {indexed : Checkout} {items : List Value}
    (hitems : validateItems h secret inventory indexed seen items = .ok changes) :
    ∀ c ∈ changes, is_allowed_path h c.path = true := by
  induction items generalizing seen changes with
  | nil =>
    obtain rfl := Except.ok.inj hitems
    simp
  | cons item items ih =>
    obtain ⟨c, hitem, hrest⟩ := bind_ok.mp hitems
    obtain ⟨rest, htail, hall⟩ := bind_ok.mp hrest
    obtain rfl := Except.ok.inj hall
    rw [List.forall_mem_cons]
    exact ⟨validateItem_allowed hitem, ih htail⟩

/-- What the agent has validated is on the allow-list. -/
theorem validated_allowed {secret : String → Bool} {inventory : List String} {indexed : Checkout}
    {value : Value} (hvalid : validated h secret inventory indexed value = .ok changes) :
    ∀ c ∈ changes, is_allowed_path h c.path = true := by
  unfold validated at hvalid
  split at hvalid
  · exact validateItems_allowed hvalid
  · cases hvalid

/-- A call that raises leaves no branch, and some target did not match or some request failed. -/
theorem allOrNothing_of_error {e : String} {left : Left}
    (hrun : open_project_change_pr h answers remote checkout report changes = (.error e, left)) :
    AllOrNothing h answers remote checkout report changes ↔
      left.branch = none ∧ (Answered answers 0 (2 * changes.length + 4) →
        ¬ ∀ c ∈ changes, Matches remote checkout c) := by
  constructor
  · intro hall
    have hnone := hall.nothing e (by rw [hrun])
    rw [hrun] at hnone
    refine ⟨hnone, fun hanswers hmatch => ?_⟩
    have hok := hall.succeeds hanswers hmatch
    rw [hrun] at hok
    cases hok
  · rintro ⟨hnone, hreason⟩
    constructor
    · intro hok
      rw [hrun] at hok
      cases hok
    · intro _ _
      rw [hrun]
      exact hnone
    · intro hanswers hmatch
      exact absurd hmatch (hreason hanswers)

/-- A call that returns has written what its changes say. -/
theorem allOrNothing_of_ok {tree : Tree}
    (hallowed : ∀ c ∈ changes, is_allowed_path h c.path = true)
    (hrun : open_project_change_pr h answers remote checkout report changes = (.ok (), ⟨some tree, true⟩)) :
    AllOrNothing h answers remote checkout report changes ↔
      tree = writeAll (named changes) remote.base := by
  constructor
  · intro hall
    obtain ⟨tree', hleft, htree, -⟩ := hall.opened (by rw [hrun])
    rw [hrun] at hleft
    have hsame : tree = tree' := Option.some.inj (congrArg Left.branch hleft)
    exact hsame.trans htree
  · rintro rfl
    constructor
    · intro _
      refine ⟨_, by rw [hrun], rfl, fun place hne => ?_⟩
      obtain ⟨cell, hcell, rfl⟩ := List.mem_map.mp (mem_of_writeAll_ne hne)
      obtain ⟨c, hc, rfl⟩ := List.mem_map.mp hcell
      exact ⟨c, hc, hallowed c hc, rfl⟩
    · intro e herror
      rw [hrun] at herror
      cases herror
    · intro _ _
      rw [hrun]

/-- The changes are all or nothing, exactly if a call that gets as far as the branch has its request
for it refused or creates all files where they are wanted, and matching targets are new. -/
theorem all_or_nothing_iff {secret : String → Bool} {inventory : List String} {indexed : Checkout}
    {value : Value} (hvalid : validated h secret inventory indexed value = .ok changes) :
    AllOrNothing h answers remote checkout report changes ↔
      (Checked answers remote checkout changes →
        (answers (changes.length + 2)).done = false ∨
          answers (changes.length + 2) = .normal ∧ Created answers remote checkout report changes ∧
            Placed changes) ∧
      (Answered answers 0 (2 * changes.length + 4) →
        (∀ c ∈ changes, Matches remote checkout c) →
          changes ≠ [] ∧ (∀ c ∈ changes, Fresh remote checkout c) ∧
            (changes.map fun c => address c.path).Nodup ∧ hasTexts report = true) := by
  have hallowed := validated_allowed hvalid
  rcases @call_cases h answers remote checkout report changes hallowed with
    ⟨hnot, e, hrun⟩ | ⟨hchecked, ⟨hbranch, e, hrun⟩ | ⟨hnormal, hnot, e, tree, pull, hrun⟩ |
      ⟨hnormal, hcreated, hrun⟩⟩
  · -- the call stops before the branch
    rw [allOrNothing_of_error hrun]
    constructor
    · rintro ⟨-, hreason⟩
      exact ⟨fun hchecked => absurd hchecked hnot,
        fun hanswers hmatch => absurd hmatch (hreason hanswers)⟩
    · rintro ⟨-, hnew⟩
      refine ⟨rfl, fun hanswers hmatch => hnot ?_⟩
      obtain ⟨hchanged, hfresh, -⟩ := hnew hanswers hmatch
      exact ⟨hchanged, (answered_all.mp hanswers).1, fun c hc => .inl (hfresh c hc)⟩
  · -- the request for the branch fails
    have hunanswered : ¬ Answered answers 0 (2 * changes.length + 4) :=
      fun hanswers => hbranch (answered_all.mp hanswers).2.1
    rw [allOrNothing_of_error hrun]
    constructor
    · rintro ⟨hnone, -⟩
      exact ⟨fun _ => .inl (by simpa using hnone), fun hanswers => absurd hanswers hunanswered⟩
    · rintro ⟨hundone, -⟩
      refine ⟨?_, fun hanswers => absurd hanswers hunanswered⟩
      rcases hundone hchecked with hdone | ⟨hnormal, -⟩
      · simp [hdone]
      · exact absurd hnormal hbranch
  · -- a later request fails, and the branch stays
    rw [allOrNothing_of_error hrun]
    constructor
    · rintro ⟨hnone, -⟩
      cases hnone
    · rintro ⟨hcreates, -⟩
      rcases hcreates hchecked with hdone | ⟨-, hcreated, -⟩
      · rw [hnormal] at hdone
        cases hdone
      · exact absurd hcreated hnot
  · -- all files are created
    rw [allOrNothing_of_ok hallowed hrun, writeAll_addressed_iff hcreated]
    constructor
    · intro hplaced
      exact ⟨fun _ => .inr ⟨hnormal, hcreated, hplaced⟩,
        fun _ _ => ⟨hchecked.changed, hcreated.fresh, hcreated.distinct, hcreated.texts⟩⟩
    · rintro ⟨hcreates, -⟩
      rcases hcreates hchecked with hdone | ⟨-, -, hplaced⟩
      · rw [hnormal] at hdone
        cases hdone
      · exact hplaced

/-- What the validation makes of one change that passes it. -/
theorem validated_one {secret : String → Bool} {inventory : List String} {indexed : Checkout}
    {path content : String} (hallowed : is_allowed_path h path = true)
    (hlength : content.length ≤ 200000) (hsecret : secret content = false)
    (hknown : inventory.contains path = true ∨ indexed (parts path) = .missing) :
    validated h secret inventory indexed
        (.list [.dict [("path", .str path), ("content", .str content)]]) =
      .ok [⟨path, content⟩] := by
  have hpath : Dict.get [("path", .str path), ("content", .str content)] "path" = .str path := rfl
  have hcontent : Dict.get [("path", .str path), ("content", .str content)] "content" =
      .str content := rfl
  have hindexed : ¬ (inventory.contains path = false ∧ indexed (parts path) ≠ .missing) := by
    rintro ⟨hunknown, hthere⟩
    rcases hknown with hin | hmissing
    · rw [hin] at hunknown
      cases hunknown
    · exact hthere hmissing
  rw [validated, validateItems, validateItem]
  simp only [hpath, hcontent, textOr_str, if_neg (Nat.not_lt.mpr hlength), hallowed, hsecret,
    if_neg hindexed]
  rfl

/-- A new file, when the answer that there is none has no body. -/
theorem new_file_all_or_nothing :
    AllOrNothing Host.ascii (fun _ => .normal) ⟨"main", fun _ => none, true⟩ (fun _ => .missing) []
      [⟨"docs/README.md", "new"⟩] := by
  have hvalid : validated Host.ascii (fun _ => false) [] (fun _ => .missing)
      (.list [.dict [("path", .str "docs/README.md"), ("content", .str "new")]]) =
        .ok [⟨"docs/README.md", "new"⟩] :=
    validated_one (by decide +kernel) (by decide) rfl (.inr rfl)
  have hfresh : ∀ c ∈ [(⟨"docs/README.md", "new"⟩ : Change)],
      Fresh ⟨"main", fun _ => none, true⟩ (fun _ => .missing) c :=
    fun _ _ => ⟨rfl, rfl⟩
  have haddress : address "docs/README.md" = key "docs/README.md" := by decide +kernel
  refine (all_or_nothing_iff hvalid).mpr
    ⟨fun _ => .inr ⟨rfl, ?_, ?_⟩, fun _ _ => ⟨?_, hfresh, ?_, rfl⟩⟩
  · exact ⟨fun _ _ _ => rfl, hfresh, by simp, rfl⟩
  · exact placed_of_addresses (by simpa using haddress)
  · simp
  · simp

/-- The update of a file that is the same on both sides, with every request answered: the answer to
the write is 200, the call raises, and the branch stays. -/
theorem update_leaves_branch :
    let remote : Remote :=
      ⟨"main", Function.update (fun _ => none) (key "README.md") (some (.file "old")), true⟩
    let checkout : Checkout := fun _ => .text "old"
    let changes : List Change := [⟨"README.md", "new"⟩]
    validated Host.ascii (fun _ => false) ["README.md"] checkout
        (.list [.dict [("path", .str "README.md"), ("content", .str "new")]]) = .ok changes ∧
      (∀ c ∈ changes, Matches remote checkout c) ∧
      (open_project_change_pr Host.ascii (fun _ => .normal) remote checkout [] changes).2.branch ≠
        none ∧
      ¬ AllOrNothing Host.ascii (fun _ => .normal) remote checkout [] changes := by
  intro remote checkout changes
  have hvalid : validated Host.ascii (fun _ => false) ["README.md"] checkout
      (.list [.dict [("path", .str "README.md"), ("content", .str "new")]]) = .ok changes :=
    validated_one (by decide +kernel) (by decide) rfl (.inl (by decide))
  have haddress : address "README.md" = key "README.md" := by decide +kernel
  have hbase : remote.base (key "README.md") = some (.file "old") := by
    change Function.update (fun _ => none) (key "README.md") (some (Entry.file "old")) _ = _
    rw [Function.update_self]
  have hmatch : ∀ c ∈ changes, Matches remote checkout c := by
    intro c hc
    obtain rfl := List.mem_singleton.mp hc
    exact .inr ⟨"old", hbase, rfl⟩
  have hread : read_text "old" = "old" := by decide +kernel
  have hcurrent : Current remote checkout ⟨"README.md", "new"⟩ := by
    refine ⟨"old", rfl, ?_⟩
    rw [hread, haddress]
    exact hbase
  have hchecked : Checked (fun _ => .normal) remote checkout changes := by
    refine ⟨by simp [changes], fun _ _ _ => rfl, fun c hc => ?_⟩
    obtain rfl := List.mem_singleton.mp hc
    exact .inr hcurrent
  obtain ⟨e, tree, pull, hrun⟩ := update_raises (validated_allowed hvalid) hchecked
    (List.mem_singleton_self _) hcurrent rfl
  rw [allOrNothing_of_error hrun, hrun]
  exact ⟨hvalid, hmatch, by simp, by simp⟩

end AllOrNothing

end AlgoBot.Brokers.ProjectChanges
