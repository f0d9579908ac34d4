import AlgoBot.Python.Json

/-!
# Model artifacts

A training uploads its model under a key and beside it a sidecar: a manifest with
the digests of the file, signed with a key only the platform knows. Before a model
is loaded the file is downloaded and compared with its sidecar.

The manifest names the key it was made for, and the download does not look at it:

* `integrity_iff`: whatever the bucket has become, a download gives only what an
  upload stored under that key, and after the uploads alone it gives what the last
  one stored, exactly if the key does not hold the file and the sidecar of another
  upload, no uploaded file serves as a manifest, and the references lead to the
  keys they were made from.
* `moved_pair`: a model of one symbol under the key of another.
-/

namespace AlgoBot.AiEngine.Artifacts

open Python

/-! ## The bucket -/

/-- What an object holds, a character for a byte. -/
abbrev Bytes := String

/-- The objects by their keys; the newest write of a key comes first. -/
abbrev Bucket := List (String × Bytes)

/-- The process environment, its interpreter and the libraries it has. -/
structure Env where
  host : Host
  /-- `hmac.new(signing_key, message, sha256).hexdigest()`. -/
  hmac : Bytes → String
  /-- The settings of the bucket are there. -/
  configured : Bool
  bucket : String
  /-- `AI_MODEL_PREFIX`. -/
  model_folder : String
  /-- The network locations `urlparse` takes. -/
  netloc_ok : String → Bool
  /-- `package_versions()`. -/
  packages : List (String × String)

def TRACKED_PACKAGES : List String :=
  ["numpy", "pandas", "scikit-learn", "joblib", "xgboost", "lightgbm"]

def notConfigured : String :=
  "Cloudflare R2 and AI_MODEL_SIGNING_KEY must be configured before model artifacts can be " ++
    "stored or loaded"

def schema_document (feature_names : List String) : Value :=
  .dict [("schema_version", .int 1),
    ("features", .list (feature_names.zipIdx.map fun feature =>
      .dict [("name", .str feature.1), ("dtype", .str "float64"),
        ("position", .int feature.2)])),
    ("feature_names", .list (feature_names.map .str)),
    ("input_dtype", .str "float64"),
    ("input_shape", .list [.none, .int feature_names.length])]

/-! ## Upload -/

/-- `re.sub(r"[^A-Za-z0-9_.-]+", "_", stem)`, after a character that was kept or replaced. -/
def sanitized (replaced : Bool) : List Char → List Char
  | [] => []
  | c :: cs =>
      if c.isAlphanum || c == '_' || c == '.' || c == '-' then c :: sanitized false cs
      else if replaced then sanitized true cs
      else '_' :: sanitized true cs

/-- The text without the characters at its ends. -/
def stripped (p : Char → Bool) (cs : List Char) : List Char :=
  ((cs.dropWhile p).reverse.dropWhile p).reverse

/-- `re.sub(...).strip("._")`. -/
def safe_stem (object_stem : String) : List Char :=
  stripped (fun c => c == '.' || c == '_') (sanitized false object_stem.toList)

/-- `AI_MODEL_PREFIX` without its slashes, and the slash after it. -/
def folder (env : Env) : List Char :=
  let folder := stripped (· == '/') env.model_folder.toList
  if folder.isEmpty then [] else folder ++ ['/']

def modelKey (env : Env) (object_stem : String) : String :=
  String.ofList (folder env ++ (safe_stem object_stem ++ ".joblib".toList))

def sidecarKey (key : String) : String := key ++ ".json"

/-- The arguments of an upload, and the package versions at its time. -/
structure Upload where
  artifact : Bytes
  metadata : Dict
  object_stem : String
  packages : List (String × String)
  /-- An empty name is refused. -/
  named : safe_stem object_stem ≠ []

namespace Upload

variable (env : Env) (u : Upload)

def key : String := modelKey env u.object_stem

def feature_schema : Value := Dict.getD u.metadata "feature_schema" (.dict [])

def envelope : Dict :=
  [("artifact_key", .str (u.key env)), ("sha256", .str (env.host.sha256 u.artifact)),
    ("hmac_sha256", .str (env.hmac u.artifact)), ("feature_schema", u.feature_schema),
    ("feature_schema_sha256", .str (env.host.sha256 (env.host.dumps u.feature_schema))),
    ("packages", .dict (u.packages.map fun p => (p.1, .str p.2))),
    ("model_metadata", .dict u.metadata)]

/-- `manifest_bytes`. -/
def manifest : Bytes := env.host.dumps (.dict (u.envelope env))

/-- The bytes of the sidecar: the manifest and its signature. -/
def sidecar : Bytes :=
  env.host.dumps
    (.dict (u.envelope env ++ [("manifest_hmac_sha256", .str (env.hmac (u.manifest env)))]))

/-- The reference an upload returns. -/
def reference : String := "r2://" ++ env.bucket ++ "/" ++ u.key env

end Upload

/-- `upload_model_artifacts`: the file, then its sidecar. -/
def upload (env : Env) (bucket : Bucket) (u : Upload) : Bucket :=
  (sidecarKey (u.key env), u.sidecar env) :: (u.key env, u.artifact) :: bucket

/-- The bucket after the uploads and nothing else. -/
def uploaded (env : Env) (history : List Upload) : Bucket := history.foldl (upload env) []

/-! ## Download -/

/-- The scheme, and what follows it. -/
def splitScheme (cs : List Char) : List Char × List Char :=
  let scheme := cs.takeWhile (· != ':')
  if scheme.length < cs.length && scheme.head?.any Char.isAlpha &&
      scheme.all fun c => c.isAlphanum || c == '+' || c == '-' || c == '.' then
    (scheme.map Char.toLower, cs.drop (scheme.length + 1))
  else ([], cs)

/-- Characters that end a path. -/
def endsPath (c : Char) : Bool := c == '#' || c == '?'

/-- Characters `urlparse` takes out. -/
def unsafeUrl (c : Char) : Bool := c == '\t' || c == '\n' || c == '\r'

/-- A character of a network location. -/
def inNetloc (c : Char) : Bool := !(c == '/' || endsPath c)

/-- The network location, and what follows it. -/
def splitNetloc (cs : List Char) : List Char × List Char :=
  match cs with
  | '/' :: '/' :: rest => rest.span inNetloc
  | _ => ([], cs)

/-- Scheme, network location and path of `urlparse(uri)`. -/
def urlparse (uri : String) : List Char × List Char × List Char :=
  let cs := (uri.toList.dropWhile fun c => c.toNat ≤ 32).filter fun c => !unsafeUrl c
  let (scheme, rest) := splitScheme cs
  let (netloc, rest) := splitNetloc rest
  (scheme, netloc, rest.takeWhile fun c => !endsPath c)

/-- The key a reference leads to. -/
def referenced (env : Env) (uri : String) : Except String String :=
  let (scheme, netloc, path) := urlparse uri
  if !env.netloc_ok (String.ofList netloc) then .error "Invalid netloc"
  else if scheme ≠ "r2".toList ∨ netloc = [] ∨ stripped (· == '/') path = [] then
    .error "Model artifact reference is not a valid r2://bucket/key URI"
  else if !env.configured then .error notConfigured
  else if String.ofList netloc ≠ env.bucket then
    .error "Model artifact bucket does not match the configured trusted bucket"
  else .ok (String.ofList (path.dropWhile (· == '/')))

/-- `client.get_object(...)["Body"].read()`. -/
def get_object (bucket : Bucket) (key : String) : Except String Bytes :=
  match bucket.lookup key with
  | some body => .ok body
  | none => .error "NoSuchKey"

/-- `str(sidecar.pop("manifest_hmac_sha256", ""))`. -/
def tag (env : Env) (d : Dict) : String :=
  (Dict.getD d "manifest_hmac_sha256" (.str "")).toStr env.host

/-- `manifest_bytes`: the sidecar without its signature, written again. -/
def text (env : Env) (d : Dict) : Bytes :=
  env.host.dumps (.dict (d.filter fun kv => kv.1 != "manifest_hmac_sha256"))

/-- The sidecar of a key, once its signature is verified. -/
def manifestOf (env : Env) (bucket : Bucket) (key : String) : Except String Dict := do
  let body ← get_object bucket (sidecarKey key)
  match env.host.loads body with
  | some (.dict d) =>
      if tag env d = env.hmac (text env d) then .ok d
      else .error "Model artifact metadata manifest HMAC verification failed"
  | some _ => .error "AttributeError"
  | none => .error "JSONDecodeError"

/-- The manifest is of a model of these features. -/
def SchemaMatches (env : Env) (features : List String) (d : Dict) : Prop :=
  env.host.sha256 (env.host.dumps (schema_document features)) =
    env.host.sha256 (env.host.dumps (Dict.getD d "feature_schema" (.dict [])))

instance (env : Env) (features : List String) (d : Dict) :
    Decidable (SchemaMatches env features d) := inferInstanceAs (Decidable (_ = _))

/-- The manifest is of these bytes. -/
def BytesMatch (env : Env) (d : Dict) (body : Bytes) : Prop :=
  env.host.sha256 body = (Dict.getD d "sha256" (.str "")).toStr env.host ∧
    env.hmac body = (Dict.getD d "hmac_sha256" (.str "")).toStr env.host

instance (env : Env) (d : Dict) (body : Bytes) : Decidable (BytesMatch env d body) :=
  inferInstanceAs (Decidable (_ ∧ _))

/-- The recorded version of a package is none, or the one that is installed. -/
def versionMatches (env : Env) (recorded : Dict) (package : String) : Bool :=
  match Dict.get recorded package with
  | .none => true
  | .str version => version == "not-installed" || env.packages.lookup package == some version
  | _ => false

/-- What is said of the first package that is installed in another version than the recorded one. -/
def mismatch (env : Env) (d : Dict) : Except String (Option String) :=
  match Dict.getD d "packages" (.dict []) with
  | .dict recorded =>
      .ok ((TRACKED_PACKAGES.find? fun package => !versionMatches env recorded package).map
        fun package =>
          "Model dependency mismatch for " ++ package ++ ": trained=" ++
            (Dict.get recorded package).toStr env.host ++ ", runtime=" ++
            (env.packages.lookup package).getD "None")
  | _ => .error "AttributeError"

/-- The bytes of the verified file. -/
def download_verified_artifact (env : Env) (bucket : Bucket) (uri : String)
    (expected_features : List String) : Except String Bytes := do
  let key ← referenced env uri
  let d ← manifestOf env bucket key
  if SchemaMatches env expected_features d then
    let body ← get_object bucket key
    if env.host.sha256 body = (Dict.getD d "sha256" (.str "")).toStr env.host then
      if env.hmac body = (Dict.getD d "hmac_sha256" (.str "")).toStr env.host then
        match ← mismatch env d with
        | none => .ok body
        | some message => .error message
      else .error "Model artifact HMAC verification failed"
    else .error "Model artifact SHA-256 verification failed"
  else .error "Model feature schema does not match the live inference feature contract"

/-! ## What the claim asks -/

variable {env : Env} {history : List Upload} {bucket : Bucket} {uri key : String}
  {features : List String} {u v : Upload} {d : Dict} {body : Bytes}

/-- One of the uploads stored these bytes under the key the reference leads to. -/
def StoredUnder (env : Env) (history : List Upload) (uri : String) (body : Bytes) : Prop :=
  ∃ u ∈ history, referenced env uri = .ok (u.key env) ∧ u.artifact = body

/-- The last upload to its key, for these features and the packages that are installed. -/
structure Served (env : Env) (history : List Upload) (u : Upload) (features : List String) :
    Prop where
  last : ∃ before after, history = before ++ u :: after ∧ ∀ v ∈ after, v.key env ≠ u.key env
  schema : SchemaMatches env features (u.envelope env)
  packages : mismatch env (u.envelope env) = .ok none

/-- After the uploads alone a download gives what was uploaded. -/
def Intact (env : Env) (history : List Upload) : Prop :=
  ∀ u features, Served env history u features →
    download_verified_artifact env (uploaded env history) (u.reference env) features =
      .ok u.artifact

/-- The reference of an upload leads to its key. -/
def Leads (env : Env) (history : List Upload) : Prop :=
  ∀ u features, Served env history u features →
    referenced env (u.reference env) = .ok (u.key env)

/-- The messages the platform signs. -/
def signed (env : Env) (history : List Upload) : List Bytes :=
  history.flatMap fun u => [u.artifact, u.manifest env]

/-- Whoever wrote the bucket had no other signature than those of the uploads. -/
structure Unforged (env : Env) (history : List Upload) (bucket : Bucket) : Prop where
  manifest : ∀ o ∈ bucket, ∀ d, env.host.loads o.2 = some (.dict d) →
    tag env d = env.hmac (text env d) → text env d ∈ signed env history
  artifact : ∀ o ∈ bucket, ∀ m ∈ signed env history, env.hmac o.2 = env.hmac m → o.2 = m

/-- The two manifests have the fields the download reads in common. -/
structure SameFields (env : Env) (d e : Dict) : Prop where
  sha256 : (Dict.getD d "sha256" (.str "")).toStr env.host =
    (Dict.getD e "sha256" (.str "")).toStr env.host
  hmac : (Dict.getD d "hmac_sha256" (.str "")).toStr env.host =
    (Dict.getD e "hmac_sha256" (.str "")).toStr env.host
  schema : env.host.dumps (Dict.getD d "feature_schema" (.dict [])) =
    env.host.dumps (Dict.getD e "feature_schema" (.dict []))
  packages : mismatch env d = mismatch env e

/-- `json.loads` reads a sidecar back that `json.dumps` writes again as it was, and what has the
text of a manifest has its fields. -/
structure Json (env : Env) (history : List Upload) (bucket : Bucket) : Prop where
  writes : ∀ u ∈ history, ∃ d, env.host.loads (u.sidecar env) = some (.dict d) ∧
    tag env d = env.hmac (u.manifest env) ∧ text env d = u.manifest env
  reads : ∀ o ∈ bucket ++ uploaded env history, ∀ d, env.host.loads o.2 = some (.dict d) →
    ∀ u ∈ history, text env d = u.manifest env → SameFields env d (u.envelope env)

/-- The key the reference leads to holds a file no upload stored there, with a manifest that is
verified, for these features and the packages that are installed: the pair of another upload, or a
manifest that is itself an uploaded file. -/
def Moved (env : Env) (history : List Upload) (bucket : Bucket) (uri : String)
    (features : List String) : Prop :=
  ∃ key d body, referenced env uri = .ok key ∧ manifestOf env bucket key = .ok d ∧
    bucket.lookup key = some body ∧ SchemaMatches env features d ∧ mismatch env d = .ok none ∧
    (∀ v ∈ history, v.key env = key → v.artifact ≠ body) ∧
    ((∃ u ∈ history, text env d = u.manifest env ∧ body = u.artifact) ∨
      ∃ u ∈ history, text env d = u.artifact ∧ BytesMatch env d body)

/-! ## A download -/

theorem manifestOf_ok : manifestOf env bucket key = .ok d ↔
    ∃ body, bucket.lookup (sidecarKey key) = some body ∧ env.host.loads body = some (.dict d) ∧
      tag env d = env.hmac (text env d) := by
  unfold manifestOf get_object
  cases hlookup : bucket.lookup (sidecarKey key) with
  | none => simp [bind, Except.bind]
  | some body =>
    simp only [bind, Except.bind, Option.some.injEq, exists_eq_left']
    split
    · next d' hloads =>
      split
      · next htag =>
        constructor
        · rintro ⟨⟩
          exact ⟨hloads, htag⟩
        · rintro ⟨hloads', _⟩
          cases hloads.symm.trans hloads'
          rfl
      · next htag =>
        constructor
        · rintro ⟨⟩
        · rintro ⟨hloads', htag'⟩
          cases hloads.symm.trans hloads'
          exact absurd htag' htag
    · next v hnot hloads =>
      constructor
      · rintro ⟨⟩
      · rintro ⟨hloads', _⟩
        exact absurd (Option.some.inj (hloads.symm.trans hloads')) (hnot d)
    · next hloads =>
      constructor
      · rintro ⟨⟩
      · rintro ⟨hloads', _⟩
        cases hloads.symm.trans hloads'

theorem download_ok : download_verified_artifact env bucket uri features = .ok body ↔
    ∃ key d, referenced env uri = .ok key ∧ manifestOf env bucket key = .ok d ∧
      bucket.lookup key = some body ∧ SchemaMatches env features d ∧ mismatch env d = .ok none ∧
      BytesMatch env d body := by
  unfold download_verified_artifact
  rw [bind_ok]
  refine exists_congr fun key => ?_
  rw [bind_ok]
  constructor
  · rintro ⟨hkey, d, hmanifest, hrest⟩
    refine ⟨d, hkey, hmanifest, ?_⟩
    split at hrest
    · next hschema =>
      obtain ⟨body', hbody, hrest⟩ := bind_ok.mp hrest
      split at hrest
      · next hsha =>
        split at hrest
        · next hhmac =>
          obtain ⟨found, hfound, hrest⟩ := bind_ok.mp hrest
          cases found with
          | none =>
            cases hrest
            refine ⟨?_, hschema, hfound, hsha, hhmac⟩
            unfold get_object at hbody
            split at hbody
            · next b hb =>
              cases hbody
              exact hb
            · cases hbody
          | some message => cases hrest
        · cases hrest
      · cases hrest
    · cases hrest
  · rintro ⟨d, hkey, hmanifest, hbody, hschema, hpackages, hsha, hhmac⟩
    refine ⟨hkey, d, hmanifest, ?_⟩
    rw [if_pos hschema, bind_ok]
    refine ⟨body, by simp [get_object, hbody], ?_⟩
    rw [if_pos hsha, if_pos hhmac, hpackages]
    rfl

theorem artifact_mem_signed (hu : u ∈ history) : u.artifact ∈ signed env history :=
  List.mem_flatMap.mpr ⟨u, hu, List.mem_cons_self⟩

theorem bytesMatch_envelope : BytesMatch env (u.envelope env) u.artifact := ⟨rfl, rfl⟩

/-- A verified manifest with the text of an upload's is of that upload's file. -/
theorem bytesMatch_iff (hjson : Json env history bucket) (hunforged : Unforged env history bucket)
    (hu : u ∈ history) (hmanifest : manifestOf env bucket key = .ok d)
    (hbody : bucket.lookup key = some body) (htext : text env d = u.manifest env) :
    BytesMatch env d body ↔ body = u.artifact := by
  obtain ⟨side, hside, hloads, _⟩ := manifestOf_ok.mp hmanifest
  have hsame := hjson.reads _ (List.mem_append_left _ (mem_of_lookup hside)) d hloads u hu htext
  constructor
  · rintro ⟨_, hhmac⟩
    have htag : env.hmac body = env.hmac u.artifact := by
      rw [hhmac, hsame.hmac]
      exact bytesMatch_envelope.2.symm
    exact hunforged.artifact _ (mem_of_lookup hbody) _ (artifact_mem_signed hu) htag
  · rintro rfl
    refine ⟨?_, ?_⟩
    · rw [hsame.sha256]
      exact bytesMatch_envelope.1
    · rw [hsame.hmac]
      exact bytesMatch_envelope.2

/-- Only a pair that was moved makes a download give what was not stored under its key. -/
theorem stored_iff (hjson : Json env history bucket) (hunforged : Unforged env history bucket) :
    (∀ body, download_verified_artifact env bucket uri features = .ok body →
      StoredUnder env history uri body) ↔ ¬ Moved env history bucket uri features := by
  constructor
  · rintro hstored ⟨key, d, body, hkey, hmanifest, hbody, hschema, hpackages, hnever, hforeign⟩
    have hmatch : BytesMatch env d body := by
      rcases hforeign with ⟨u, hu, htext, hsame⟩ | ⟨_, _, _, hmatch⟩
      · exact (bytesMatch_iff hjson hunforged hu hmanifest hbody htext).mpr hsame
      · exact hmatch
    have hdownload := download_ok.mpr ⟨key, d, hkey, hmanifest, hbody, hschema, hpackages, hmatch⟩
    obtain ⟨v, hv, href, hsame⟩ := hstored body hdownload
    exact hnever v hv (Except.ok.inj (href.symm.trans hkey)) hsame
  · intro hmoved body hdownload
    obtain ⟨key, d, hkey, hmanifest, hbody, hschema, hpackages, hmatch⟩ := download_ok.mp hdownload
    by_contra hstored
    refine hmoved ⟨key, d, body, hkey, hmanifest, hbody, hschema, hpackages, ?_, ?_⟩
    · intro v hv hvkey hsame
      exact hstored ⟨v, hv, by rw [hvkey]; exact hkey, hsame⟩
    · -- the manifest is one of the signed messages: a manifest or a file
      obtain ⟨side, hside, hloads, htag⟩ := manifestOf_ok.mp hmanifest
      have hsigned := hunforged.manifest _ (mem_of_lookup hside) d hloads htag
      obtain ⟨u, hu, hmessage⟩ := List.mem_flatMap.mp hsigned
      rcases List.mem_cons.mp hmessage with hfile | hrest
      · exact Or.inr ⟨u, hu, hfile, hmatch⟩
      · have htext := List.mem_singleton.mp hrest
        exact Or.inl ⟨u, hu, htext,
          (bytesMatch_iff hjson hunforged hu hmanifest hbody htext).mp hmatch⟩

/-! ## Keys -/

/-- Characters of a name that is safe in an object key. -/
def safeChar (c : Char) : Bool := c.isAlphanum || c == '_' || c == '.' || c == '-'

/-- `urlparse` keeps the character, and it is in a path. -/
def plain (c : Char) : Bool := !unsafeUrl c && !endsPath c

theorem plain_of_safeChar {c : Char} (h : safeChar c = true) : plain c = true ∧ c ≠ '/' := by
  constructor
  · by_contra hplain
    have hcases : c = '\t' ∨ c = '\n' ∨ c = '\r' ∨ c = '#' ∨ c = '?' := by
      simpa [plain, unsafeUrl, endsPath, or_assoc, imp_iff_not_or] using hplain
    rcases hcases with rfl | rfl | rfl | rfl | rfl <;> exact absurd h (by decide)
  · rintro rfl
    exact absurd h (by decide)

theorem safeChar_of_sanitized {cs : List Char} {replaced : Bool} {c : Char}
    (hc : c ∈ sanitized replaced cs) : safeChar c = true := by
  induction cs generalizing replaced with
  | nil => cases hc
  | cons x cs ih =>
    unfold sanitized at hc
    split at hc
    · next hx =>
      rcases List.mem_cons.mp hc with rfl | hc
      · exact hx
      · exact ih hc
    · split at hc
      · exact ih hc
      · rcases List.mem_cons.mp hc with rfl | hc
        · decide
        · exact ih hc

theorem mem_of_stripped {p : Char → Bool} {cs : List Char} {c : Char} (hc : c ∈ stripped p cs) :
    c ∈ cs := by
  unfold stripped at hc
  rw [List.mem_reverse] at hc
  exact (List.dropWhile_sublist p).subset
    (List.mem_reverse.mp ((List.dropWhile_sublist p).subset hc))

theorem safeChar_of_stem {stem : String} {c : Char} (hc : c ∈ safe_stem stem) :
    safeChar c = true :=
  safeChar_of_sanitized (mem_of_stripped hc)

theorem key_toList (u : Upload) :
    (u.key env).toList = folder env ++ (safe_stem u.object_stem ++ ".joblib".toList) := by
  simp [Upload.key, modelKey]

/-- A sidecar has another key than any model. -/
theorem sidecarKey_ne_key (key : String) (u : Upload) : sidecarKey key ≠ u.key env := by
  intro h
  have hlast := congrArg (fun s : String => s.toList.getLast?) h
  simp [sidecarKey, key_toList] at hlast

theorem sidecarKey_inj {key key' : String} (h : sidecarKey key = sidecarKey key') : key = key' := by
  have hlist := congrArg String.toList h
  simp only [sidecarKey, String.toList_append] at hlist
  exact String.toList_inj.mp (List.append_cancel_right hlist)

/-! ## After the uploads alone -/

theorem lookup_upload (bucket : Bucket) (v : Upload) (key : String) :
    (upload env bucket v).lookup key =
      if key = sidecarKey (v.key env) then some (v.sidecar env)
      else if key = v.key env then some v.artifact else bucket.lookup key := by
  unfold upload
  rw [List.lookup_cons]
  split
  · next h => rw [if_pos (by simpa using h)]
  · next h =>
    rw [if_neg (by simpa using h), List.lookup_cons]
    split
    · next h => rw [if_pos (by simpa using h)]
    · next h => rw [if_neg (by simpa using h)]

/-- Uploads to other keys leave the pair of a key. -/
theorem lookup_uploads (bucket : Bucket) {after : List Upload}
    (hother : ∀ v ∈ after, v.key env ≠ u.key env) :
    (after.foldl (upload env) bucket).lookup (u.key env) = bucket.lookup (u.key env) ∧
      (after.foldl (upload env) bucket).lookup (sidecarKey (u.key env)) =
        bucket.lookup (sidecarKey (u.key env)) := by
  induction after generalizing bucket with
  | nil => exact ⟨rfl, rfl⟩
  | cons v after ih =>
    have hne := hother v List.mem_cons_self
    obtain ⟨hfile, hside⟩ := ih (upload env bucket v)
      fun w hw => hother w (List.mem_cons_of_mem v hw)
    refine ⟨hfile.trans ?_, hside.trans ?_⟩
    · rw [lookup_upload, if_neg (sidecarKey_ne_key _ u).symm, if_neg hne.symm]
    · rw [lookup_upload, if_neg fun h => hne (sidecarKey_inj h).symm,
        if_neg (sidecarKey_ne_key _ v)]

/-- The pair of the last upload to a key. -/
theorem lookup_uploaded {before after : List Upload} (hhistory : history = before ++ u :: after)
    (hother : ∀ v ∈ after, v.key env ≠ u.key env) :
    (uploaded env history).lookup (u.key env) = some u.artifact ∧
      (uploaded env history).lookup (sidecarKey (u.key env)) = some (u.sidecar env) := by
  unfold uploaded
  rw [hhistory, List.foldl_append, List.foldl_cons]
  obtain ⟨hfile, hside⟩ := lookup_uploads (upload env (before.foldl (upload env) []) u) hother
  refine ⟨hfile.trans ?_, hside.trans ?_⟩
  · rw [lookup_upload, if_neg (sidecarKey_ne_key _ u).symm, if_pos rfl]
  · rw [lookup_upload, if_pos rfl]

/-- Every object is of one of the uploads. -/
theorem key_of_uploaded (hbody : (uploaded env history).lookup key = some body) :
    ∃ v ∈ history, key = v.key env ∨ key = sidecarKey (v.key env) := by
  unfold uploaded at hbody
  induction history using List.reverseRecOn with
  | nil => cases hbody
  | append_singleton history v ih =>
    rw [List.foldl_append] at hbody
    have hlookup := (lookup_upload (history.foldl (upload env) []) v key).symm.trans hbody
    split at hlookup
    · next hkey => exact ⟨v, List.mem_append_right _ List.mem_cons_self, Or.inr hkey⟩
    · split at hlookup
      · next hkey => exact ⟨v, List.mem_append_right _ List.mem_cons_self, Or.inl hkey⟩
      · obtain ⟨w, hw, hkey⟩ := ih hlookup
        exact ⟨w, List.mem_append_left _ hw, hkey⟩

/-! ## References -/

/-- What follows the two slashes of a reference. -/
def afterSlashes (env : Env) (u : Upload) : List Char :=
  (env.bucket.toList ++ '/' :: (u.key env).toList).filter fun c => !unsafeUrl c

theorem urlparse_reference : urlparse (u.reference env) =
    ("r2".toList, (afterSlashes env u).takeWhile inNetloc,
      ((afterSlashes env u).dropWhile inNetloc).takeWhile fun c => !endsPath c) := by
  have hchars : (u.reference env).toList =
      'r' :: '2' :: ':' :: '/' :: '/' :: (env.bucket.toList ++ '/' :: (u.key env).toList) := by
    simp [Upload.reference]
  have hkept : ((u.reference env).toList.dropWhile fun c => c.toNat ≤ 32).filter
      (fun c => !unsafeUrl c) = 'r' :: '2' :: ':' :: '/' :: '/' :: afterSlashes env u := by
    rw [hchars, List.dropWhile_cons_of_neg (by decide)]
    simp [afterSlashes, unsafeUrl]
  have hscheme : splitScheme ('r' :: '2' :: ':' :: '/' :: '/' :: afterSlashes env u) =
      ("r2".toList, '/' :: '/' :: afterSlashes env u) := by
    unfold splitScheme
    have htake : ('r' :: '2' :: ':' :: '/' :: '/' :: afterSlashes env u).takeWhile (· != ':') =
        ['r', '2'] := by simp
    rw [htake, if_pos]
    · rfl
    · simp
  unfold urlparse
  dsimp only
  rw [hkept, hscheme]
  simp [splitNetloc, List.span_eq_takeWhile_dropWhile]

/-- The key of a reference has plain characters only, and its bucket is the configured one. -/
theorem referenced_ok (h : referenced env uri = .ok key) :
    String.ofList (urlparse uri).2.1 = env.bucket ∧
      key = String.ofList ((urlparse uri).2.2.dropWhile (· == '/')) := by
  unfold referenced at h
  dsimp only at h
  split at h
  · cases h
  · split at h
    · cases h
    · split at h
      · cases h
      · split at h
        · cases h
        · next hbucket => exact ⟨not_not.mp hbucket, (Except.ok.inj h).symm⟩

theorem plain_of_referenced (h : referenced env (u.reference env) = .ok key) :
    ∀ c ∈ key.toList, plain c = true := by
  obtain ⟨_, rfl⟩ := referenced_ok h
  intro c hc
  rw [urlparse_reference, String.toList_ofList] at hc
  have hpath := (List.dropWhile_sublist _).subset hc
  have hends := List.mem_takeWhile_imp hpath
  have hafter := (List.dropWhile_sublist _).subset ((List.takeWhile_sublist _).subset hpath)
  have hsafe := (List.mem_filter.mp hafter).2
  unfold plain
  rw [hsafe, hends]
  rfl

theorem head_stripped {p : Char → Bool} {cs : List Char} {c : Char} {rest : List Char}
    (h : stripped p cs = c :: rest) : p c = false := by
  have hpre : stripped p cs <+: cs.dropWhile p := List.rdropWhile_prefix p _
  rw [h] at hpre
  obtain ⟨tail, htail⟩ := hpre
  have hne : cs.dropWhile p ≠ [] := by simp [← htail]
  have hhead := List.head_dropWhile_not p hne
  have hc : (cs.dropWhile p).head hne = c := by simp [← htail]
  rwa [hc] at hhead

/-- The key of a model does not begin with a slash. -/
theorem dropWhile_key (u : Upload) :
    (u.key env).toList.dropWhile (· == '/') = (u.key env).toList := by
  have hhead : ∃ c rest, (u.key env).toList = c :: rest ∧ (c == '/') = false := by
    rw [key_toList]
    unfold folder
    dsimp only
    cases hfolder : stripped (· == '/') env.model_folder.toList with
    | nil =>
      cases hstem : safe_stem u.object_stem with
      | nil => exact absurd hstem u.named
      | cons c rest =>
        have hc : c ∈ safe_stem u.object_stem := by
          rw [hstem]
          exact List.mem_cons_self
        refine ⟨c, rest ++ ".joblib".toList, rfl, ?_⟩
        simpa using (plain_of_safeChar (safeChar_of_stem hc)).2
    | cons c rest =>
      have hc := head_stripped hfolder
      exact ⟨c, _, rfl, hc⟩
  obtain ⟨c, rest, hkey, hc⟩ := hhead
  rw [hkey, List.dropWhile_cons_of_neg (by simp [hc])]

/-- Where the folder has plain characters only, a reference that leads anywhere leads to the key
it was made from. -/
theorem referenced_reference (h : referenced env (u.reference env) = .ok key)
    (hfolder : ∀ c ∈ folder env, plain c = true) : key = u.key env := by
  have hsuffix : ∀ c ∈ ".joblib".toList, plain c = true := by
    rw [← List.all_eq_true]
    decide
  have hkey : ∀ c ∈ (u.key env).toList, plain c = true := by
    intro c hc
    rw [key_toList] at hc
    rcases List.mem_append.mp hc with hc | hc
    · exact hfolder c hc
    · rcases List.mem_append.mp hc with hc | hc
      · exact (plain_of_safeChar (safeChar_of_stem hc)).1
      · exact hsuffix c hc
  obtain ⟨hbucket, rfl⟩ := referenced_ok h
  rw [urlparse_reference] at hbucket ⊢
  have hbucket : (afterSlashes env u).takeWhile inNetloc = env.bucket.toList := by
    rw [← hbucket, String.toList_ofList]
  -- so the bucket is plain too, and nothing of what follows the slashes is taken out
  have hplain : ∀ c ∈ env.bucket.toList, inNetloc c = true ∧ unsafeUrl c = false := by
    intro c hc
    rw [← hbucket] at hc
    refine ⟨List.mem_takeWhile_imp hc, ?_⟩
    have hafter := (List.takeWhile_sublist _).subset hc
    simpa using (List.mem_filter.mp hafter).2
  have hafter : afterSlashes env u = env.bucket.toList ++ '/' :: (u.key env).toList := by
    refine List.filter_eq_self.mpr fun c hc => ?_
    rcases List.mem_append.mp hc with hc | hc
    · simp [(hplain c hc).2]
    · rcases List.mem_cons.mp hc with rfl | hc
      · decide
      · exact (Bool.and_eq_true_iff.mp (hkey c hc)).1
  have hpath : (afterSlashes env u).dropWhile inNetloc = '/' :: (u.key env).toList := by
    rw [hafter, List.dropWhile_append_of_pos fun c hc => (hplain c hc).1,
      List.dropWhile_cons_of_neg (by decide)]
  have htake : ('/' :: (u.key env).toList).takeWhile (fun c => !endsPath c) =
      '/' :: (u.key env).toList := by
    refine List.takeWhile_eq_self_iff.mpr fun c hc => ?_
    rcases List.mem_cons.mp hc with rfl | hc
    · decide
    · exact (Bool.and_eq_true_iff.mp (hkey c hc)).2
  dsimp only
  rw [hpath, htake, List.dropWhile_cons_of_pos (by decide), dropWhile_key, String.ofList_toList]

/-! ## Without interference -/

theorem Served.mem (h : Served env history u features) : u ∈ history := by
  obtain ⟨before, after, rfl, _⟩ := h.last
  exact List.mem_append_right _ List.mem_cons_self

/-- The key of an upload holds its verified pair, until another upload to the key. -/
theorem download_of_leads (hjson : Json env history bucket)
    (hserved : Served env history u features)
    (hlead : referenced env uri = .ok (u.key env)) :
    download_verified_artifact env (uploaded env history) uri features = .ok u.artifact := by
  obtain ⟨before, after, hhistory, hother⟩ := hserved.last
  obtain ⟨hfile, hside⟩ := lookup_uploaded hhistory hother
  obtain ⟨d, hloads, htag, htext⟩ := hjson.writes u hserved.mem
  have hsame := hjson.reads _ (List.mem_append_right _ (mem_of_lookup hside)) d hloads u hserved.mem
    htext
  have hmanifest : manifestOf env (uploaded env history) (u.key env) = .ok d :=
    manifestOf_ok.mpr ⟨u.sidecar env, hside, hloads, by rw [htag, htext]⟩
  refine download_ok.mpr ⟨u.key env, d, hlead, hmanifest, hfile, ?_, ?_, ?_, ?_⟩
  · unfold SchemaMatches
    rw [hsame.schema]
    exact hserved.schema
  · rw [hsame.packages]
    exact hserved.packages
  · rw [hsame.sha256]
    exact bytesMatch_envelope.1
  · rw [hsame.hmac]
    exact bytesMatch_envelope.2

theorem intact_iff (hjson : Json env history bucket) : Intact env history ↔ Leads env history := by
  constructor
  · intro hintact u features hserved
    obtain ⟨key, _, hkey, _, hbody, _⟩ := download_ok.mp (hintact u features hserved)
    -- the key is that of an upload, so it shows the folder of all of them
    obtain ⟨v, _, hv⟩ := key_of_uploaded hbody
    have hfolder : ∀ c ∈ folder env, c ∈ key.toList := by
      intro c hc
      rcases hv with rfl | rfl
      · rw [key_toList]
        exact List.mem_append_left _ hc
      · simp only [sidecarKey, String.toList_append, key_toList]
        exact List.mem_append_left _ (List.mem_append_left _ hc)
    have hplain := plain_of_referenced hkey
    rw [hkey, referenced_reference hkey fun c hc => hplain c (hfolder c hc)]
  · intro hleads u features hserved
    exact download_of_leads hjson hserved (hleads u features hserved)

/-- Whatever became of the bucket, a download gives only what was stored under its key, and the
uploads alone are given back, exactly if no pair was moved and the references lead to their keys. -/
theorem integrity_iff (hunforged : Unforged env history bucket) (hjson : Json env history bucket)
    (uri : String) (features : List String) :
    (∀ body, download_verified_artifact env bucket uri features = .ok body →
        StoredUnder env history uri body) ∧ Intact env history ↔
      ¬ Moved env history bucket uri features ∧ Leads env history := by
  rw [stored_iff hjson hunforged, intact_iff hjson]

/-! ### A model of one symbol -/

/-- What the trainer uploads of a model of one feature. -/
def first : Upload where
  artifact := "rf of R_75"
  metadata := [("feature_schema", schema_document ["close"])]
  object_stem := "R_75_1m_rf_1"
  packages := [("numpy", "2.1.0")]
  named := by decide +kernel

/-- A platform that reads the sidecars it is told. -/
def platform (loads : Bytes → Option Value) : Env where
  host := { Host.ascii with dumps := jsonText compact, loads := loads }
  hmac message := "signed:" ++ message
  configured := true
  bucket := "algobot"
  model_folder := "algobot/models"
  netloc_ok _ := true
  packages := [("numpy", "2.1.0")]

/-- The sidecar of the model as a value; what is written does not depend on what is read. -/
def firstSidecar : Dict :=
  first.envelope (platform fun _ => none) ++
    [("manifest_hmac_sha256", .str ("signed:" ++ first.manifest (platform fun _ => none)))]

def live : Env :=
  platform fun body =>
    if body = first.sidecar (platform fun _ => none) then some (.dict firstSidecar) else none

/-- Where a model of another symbol would be. -/
def otherKey : String := "algobot/models/R_100_1m_rf_1.joblib"

/-- The pair of the model under the other key. -/
def moved : Bucket := [(sidecarKey otherKey, first.sidecar live), (otherKey, first.artifact)]

theorem loads_live (body : Bytes) (d : Dict) :
    live.host.loads body = some (.dict d) ↔ body = first.sidecar live ∧ d = firstSidecar := by
  show (if body = first.sidecar live then some (Value.dict firstSidecar) else none) = _ ↔ _
  split
  · next hbody => simp [hbody, eq_comm]
  · next hbody => simp [hbody]

theorem text_firstSidecar : text live firstSidecar = first.manifest live := rfl

theorem unforged_live (bucket : Bucket) : Unforged live [first] bucket where
  manifest o _ d hloads _ := by
    obtain ⟨_, rfl⟩ := (loads_live o.2 d).mp hloads
    refine List.mem_flatMap.mpr ⟨first, List.mem_cons_self, ?_⟩
    exact List.mem_cons_of_mem _ (List.mem_singleton.mpr text_firstSidecar)
  artifact o _ m _ htag := by
    have happend : "signed:" ++ o.2 = "signed:" ++ m := htag
    exact (String.append_right_inj _).mp happend

theorem json_live (bucket : Bucket) : Json live [first] bucket where
  writes u hu := by
    obtain rfl := List.mem_singleton.mp hu
    exact ⟨firstSidecar, (loads_live _ _).mpr ⟨rfl, rfl⟩, rfl, text_firstSidecar⟩
  reads o _ d hloads u hu _ := by
    obtain rfl := List.mem_singleton.mp hu
    obtain ⟨_, rfl⟩ := (loads_live o.2 d).mp hloads
    exact ⟨rfl, rfl, rfl, rfl⟩

/-- The model where its upload left it. -/
theorem untouched_served :
    (∀ body, download_verified_artifact live (uploaded live [first]) (first.reference live)
          ["close"] = .ok body → StoredUnder live [first] (first.reference live) body) ∧
      Intact live [first] := by
  have hlead : ((referenced live (first.reference live)).toOption.any
      fun key => key == first.key live) = true := by
    decide +kernel
  cases hkey : referenced live (first.reference live) with
  | error e =>
    rw [hkey] at hlead
    cases hlead
  | ok key =>
    rw [hkey] at hlead
    have hfirst : key = first.key live := beq_iff_eq.mp hlead
    subst hfirst
    refine (integrity_iff (unforged_live _) (json_live _) (first.reference live)
      ["close"]).mpr ⟨?_, ?_⟩
    · rintro ⟨key, d, body, hkey', _, hbody, _, _, hnever, _⟩
      obtain rfl := Except.ok.inj (hkey.symm.trans hkey')
      have hfile : (uploaded live [first]).lookup (first.key live) = some first.artifact :=
        (lookup_uploaded (List.nil_append [first]).symm (List.forall_mem_nil _)).1
      exact hnever first List.mem_cons_self rfl (Option.some.inj (hfile.symm.trans hbody))
    · intro u features hserved
      obtain rfl := List.mem_singleton.mp hserved.mem
      exact hkey

/-- The pair of the model, moved to the other key, is served as the other model. -/
theorem moved_pair :
    ¬ ∀ (env : Env) (history : List Upload) (bucket : Bucket) (uri : String)
        (features : List String), Unforged env history bucket → Json env history bucket →
      (∀ body, download_verified_artifact env bucket uri features = .ok body →
          StoredUnder env history uri body) ∧ Intact env history := by
  intro hall
  have hlead : ((referenced live ("r2://algobot/" ++ otherKey)).toOption.any
      fun key => key == otherKey && key != first.key live) = true := by
    decide +kernel
  cases hkey : referenced live ("r2://algobot/" ++ otherKey) with
  | error e =>
    rw [hkey] at hlead
    cases hlead
  | ok key =>
    rw [hkey] at hlead
    obtain ⟨hother, hne⟩ := Bool.and_eq_true_iff.mp hlead
    obtain rfl : key = otherKey := beq_iff_eq.mp hother
    have hside : moved.lookup (sidecarKey otherKey) = some (first.sidecar live) := by
      simp [moved]
    have hfile : moved.lookup otherKey = some first.artifact := by
      have hkeys : (otherKey == sidecarKey otherKey) = false := by decide +kernel
      simp [moved, List.lookup_cons, hkeys]
    have hmanifest : manifestOf live moved otherKey = .ok firstSidecar :=
      manifestOf_ok.mpr ⟨_, hside, (loads_live _ _).mpr ⟨rfl, rfl⟩, rfl⟩
    have hdownload : download_verified_artifact live moved ("r2://algobot/" ++ otherKey) ["close"] =
        .ok first.artifact :=
      download_ok.mpr ⟨otherKey, firstSidecar, hkey, hmanifest, hfile, rfl, rfl, ⟨rfl, rfl⟩⟩
    obtain ⟨u, hu, hlead, _⟩ := (hall live [first] moved ("r2://algobot/" ++ otherKey) ["close"]
      (unforged_live _) (json_live _)).1 _ hdownload
    obtain rfl := List.mem_singleton.mp hu
    have hsame := Except.ok.inj (hkey.symm.trans hlead)
    simp [hsame] at hne

end AlgoBot.AiEngine.Artifacts
