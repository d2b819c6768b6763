/-
Statistical artifacts: an archive of a manifest and two arrays, bound to one
signal and identified by the digest of its bytes.  The archive, the array and
the JSON formats are those of the libraries that read them.
-/
import PredictiveAutoscaler.Forecasting.Contracts
import PredictiveAutoscaler.PythonValue

namespace PredictiveAutoscaler.Forecasting

abbrev Bytes := List UInt8

/-- `statistical.KernelSettings`. -/
structure KernelSettings where
  intervalSeconds : ℕ
  seasonSeconds : ℕ := 86400
  profileDays : ℕ := 7
  profileMinSupport : ℕ := 3
  arOrder : ℕ := 3
  arWindowDays : ℕ := 7
  arMinRows : ℕ := 36
  arMinSpanSeconds : ℕ := 6 * 3600
  hwMinDays : ℕ := 2
  hwMaxDays : ℕ := 14
  hwWeight : ℚ := 1 / 2
  minHistoryDays : ℕ := 7
  minObservedFraction : ℚ := binary64 (95 / 100)
  hwMaxiter : ℕ := 200

namespace KernelSettings

def m (ks : KernelSettings) : ℕ := ks.seasonSeconds / ks.intervalSeconds

def canonical (ks : KernelSettings) : List (String × Value) :=
  [("interval_seconds", .int ks.intervalSeconds),
    ("season_seconds", .int ks.seasonSeconds),
    ("profile_days", .int ks.profileDays),
    ("profile_min_support", .int ks.profileMinSupport),
    ("ar_order", .int ks.arOrder),
    ("ar_window_days", .int ks.arWindowDays),
    ("ar_min_rows", .int ks.arMinRows),
    ("ar_min_span_seconds", .int ks.arMinSpanSeconds),
    ("hw_min_days", .int ks.hwMinDays),
    ("hw_max_days", .int ks.hwMaxDays),
    ("hw_weight", .float (.finite ks.hwWeight)),
    ("min_history_days", .int ks.minHistoryDays),
    ("min_observed_fraction", .float (.finite ks.minObservedFraction)),
    ("hw_maxiter", .int ks.hwMaxiter)]

end KernelSettings

namespace Artifacts

/-- `ArtifactRefused.REASONS`. -/
inductive Refusal
  | digest
  | malformed
  | foreign
  | incompatible
  | stale
deriving DecidableEq, Repr

/-- The file-system calls that may raise. -/
inductive FileOp
  | read
  | write
  | sync
  | rename
  | syncDirectory
deriving DecidableEq, Repr

/-- Python's own exceptions. -/
inductive PyException
  | badZipFile (text : String)
  | valueError (text : String)
  | keyError (key : String)
  | typeError (text : String)
  | overflowError (text : String)
  | osError (op : FileOp)
  | other (text : String)
deriving DecidableEq, Repr

inductive ArtifactError
  | refused (reason : Refusal) (message : String)
  | exception (e : PyException)
deriving DecidableEq, Repr

/-- `except (zipfile.BadZipFile, ValueError, KeyError, TypeError)`. -/
def asMalformed : PyException → ArtifactError
  | .badZipFile text => .refused .malformed s!"BadZipFile: {text}"
  | .valueError text => .refused .malformed s!"ValueError: {text}"
  | .keyError key => .refused .malformed s!"KeyError: '{key}'"
  | .typeError text => .refused .malformed s!"TypeError: {text}"
  | e => .exception e

/-- An exception that nothing catches. -/
def raised {α : Type} : Except PyException α → Except ArtifactError α
  | .ok a => .ok a
  | .error e => .error (.exception e)

/-- `Binding`: what an artifact belongs to. -/
structure Binding where
  autoscalerUid : String
  targetUid : String
  querySha256 : String
  signalContract : String
  intervalSeconds : ℤ
  seasonality : String
  recipe : String
deriving DecidableEq, Repr

/-- `asdict`. -/
def Binding.asdict (b : Binding) : List (String × Value) :=
  [("autoscaler_uid", .str b.autoscalerUid),
    ("target_uid", .str b.targetUid),
    ("query_sha256", .str b.querySha256),
    ("signal_contract", .str b.signalContract),
    ("interval_seconds", .int b.intervalSeconds),
    ("seasonality", .str b.seasonality),
    ("recipe", .str b.recipe)]

/-- The record whose digest is `Binding.key`. -/
def bindingDoc (b : Binding) : Value :=
  .dict (("schema", .str "artifact-binding/v1") :: b.asdict)

/-- The record that a pointer file holds. -/
def pointerDoc (sha : String) (cutoff : Value) : Value :=
  .dict [("sha256", .str sha), ("fit_cutoff", cutoff)]

/-- An array as `np.load` returns it, with what iterating it as floats gives. -/
structure NpArray where
  dtype : String
  shape : List ℕ
  finite : Bool
  floats : Except PyException (List ℚ)

/-- The libraries: `zipfile`, `np.load`, `json`, `str` and SHA-256, which does
not collide. Every binding is written, each in its own way; `json.loads` reads
back the record that `canonical_json` wrote, and a NaN is not written. -/
structure Libraries where
  sha256Hex : Bytes → String
  unzip : Bytes → Except PyException (List (String × Except PyException Bytes))
  npLoad : Bytes → Except PyException NpArray
  loads : Bytes → Except PyException Value
  canonicalJson : Value → Except PyException Bytes
  format : Value → String
  bindingText : Binding → Bytes
  sha256_injective : Function.Injective sha256Hex
  format_str : ∀ s, format (.str s) = s
  binding_written : ∀ b, canonicalJson (bindingDoc b) = .ok (bindingText b)
  bindingText_injective : Function.Injective bindingText
  loads_pointer : ∀ {sha cutoff text},
    canonicalJson (pointerDoc sha cutoff) = .ok text →
      ∃ members, loads text = .ok (.dict members) ∧
        members.lookup "sha256" = some (.str sha) ∧
        members.lookup "fit_cutoff" = some cutoff
  nan_not_written : ∀ sha text,
    canonicalJson (pointerDoc sha (.float .nan)) ≠ .ok text

/-- `Binding.key`: nothing that a caller controls reaches a path. -/
def Libraries.key (L : Libraries) (b : Binding) : String :=
  L.sha256Hex (L.bindingText b)

/-- `v[k]`. -/
def index (v : Value) (k : String) : Except PyException Value :=
  match v with
  | .dict members =>
      match members.lookup k with
      | some found => .ok found
      | none => .error (.keyError k)
  | .list _ =>
      .error (.typeError "list indices must be integers or slices, not str")
  | .str _ =>
      .error (.typeError "string indices must be integers, not 'str'")
  | .none => .error (.typeError "'NoneType' object is not subscriptable")
  | .bool _ => .error (.typeError "'bool' object is not subscriptable")
  | .int _ => .error (.typeError "'int' object is not subscriptable")
  | .float _ => .error (.typeError "'float' object is not subscriptable")

/-- `**v` for a dataclass of these fields. -/
def keywords (fields : List String) (v : Value) :
    Except PyException (List (String × Value)) :=
  match v with
  | .dict members =>
      if members.length = fields.length ∧
          ∀ k ∈ fields, (members.lookup k).isSome then
        .ok members
      else .error (.typeError "the keyword arguments are not the fields")
  | _ => .error (.typeError "argument after ** must be a mapping")

def hwFields : List String :=
  ["alpha", "beta", "gamma", "level", "trend", "sse", "n_train",
    "segment_start"]

/-- `HWState`: its scalar fields and its season. -/
structure HWState where
  scalars : List (String × Value)
  season : List ℚ

structure E1Fit where
  cutoff : Value
  intervalSeconds : Value
  hw : HWState
  arCoef : List ℚ
  arRows : Value
  inputLo : Value
  inputSha256 : Value
  settings : Value

def artifactSchema : String := "statistical-artifact/v1"

def recipeE1 : String := "e1-product/v1"

def members : List String := ["manifest.json", "hw_season.npy", "ar_coef.npy"]

def maxArtifactBytes : ℕ := 2 ^ 20

def maxFitAgeSeconds : ℤ := 12 * 3600

section Decode

variable (L : Libraries)

/-- A Python exception inside the `try` is refused as malformed. -/
def attempt {α : Type} (x : Except PyException α) : Except ArtifactError α :=
  match x with
  | .ok a => .ok a
  | .error e => .error (asMalformed e)

/-- One array, checked against its own digest, dtype and shape. -/
def readArray (raw : List (String × Bytes)) (manifest : Value)
    (name : String) : Except ArtifactError (List ℚ) := do
  let arrays ← attempt (index manifest "arrays")
  let spec ← attempt (index arrays name)
  let blob := (raw.lookup s!"{name}.npy").getD []
  let digest ← attempt (index spec "sha256")
  if (Value.str (L.sha256Hex blob)).eq digest then
    let a ← attempt (L.npLoad blob)
    let fits ← if a.dtype = "<f8" then
        (attempt (index spec "shape")).map fun shape =>
          (Value.list (a.shape.map fun n => .int n)).eq shape && a.finite
      else .ok false
    if fits then attempt a.floats
    else
      .error (.refused .malformed
        s!"{name} has the wrong dtype, shape or values")
  else .error (.refused .malformed s!"{name} does not match its digest")

/-- The contents of the members. -/
def readMembers (archive : List (String × Except PyException Bytes)) :
    Except ArtifactError (List (String × Bytes)) :=
  if (archive.map Prod.fst).isPerm members then
    members.mapM fun name =>
      match archive.lookup name with
      | some content => do
          let bytes ← attempt content
          .ok (name, bytes)
      | none => .error (asMalformed (.keyError name))
  else .error (.refused .malformed s!"members {archive.map Prod.fst}")

/-- The fit of an archive and what it is bound to. -/
def unpack (data : Bytes) :
    Except ArtifactError (E1Fit × List (String × Value)) := do
  let archive ← attempt (L.unzip data)
  let raw ← readMembers archive
  let manifest ← attempt (L.loads ((raw.lookup "manifest.json").getD []))
  let season ← readArray L raw manifest "hw_season"
  let coef ← readArray L raw manifest "ar_coef"
  let schema ← attempt (index manifest "schema")
  let known ← if schema.eq (.str artifactSchema) then
      (attempt (index manifest "recipe")).map fun recipe =>
        recipe.eq (.str recipeE1)
    else .ok false
  if !known then .error (.refused .malformed "unknown schema or recipe")
  else
    let hw ← attempt (index manifest "hw")
    let scalars ← attempt (keywords hwFields hw)
    let cutoff ← attempt (index manifest "fit_cutoff")
    let binding ← attempt (index manifest "binding")
    let interval ← attempt (index binding "interval_seconds")
    let arRows ← attempt (index manifest "ar_rows")
    let inputLo ← attempt (index manifest "input_lo")
    let inputSha256 ← attempt (index manifest "input_sha256")
    let settings ← attempt (index manifest "kernel_settings")
    let bound ← attempt (keywords
      ["autoscaler_uid", "target_uid", "query_sha256", "signal_contract",
        "interval_seconds", "seasonality", "recipe"] binding)
    .ok (⟨cutoff, interval, ⟨scalars, season⟩, coef, arRows, inputLo,
      inputSha256, settings⟩, bound)

/-- Bound to this signal, or else foreign or fitted for another cadence. -/
def checkBinding (bound : List (String × Value)) (binding : Binding) :
    Except ArtifactError Unit :=
  if (Value.dict bound).eq (.dict binding.asdict) then .ok ()
  else
    let signal := ["autoscaler_uid", "target_uid", "query_sha256",
      "signal_contract", "recipe"]
    let sameSignal := signal.all fun k =>
      match bound.lookup k, binding.asdict.lookup k with
      | some v, some w => v.eq w
      | _, _ => false
    .error (.refused (if sameSignal then .incompatible else .foreign)
      "the artifact is bound elsewhere")

/-- `n - v`. -/
def subtract (n : ℤ) (v : Value) : Except PyException PyFloat :=
  match v with
  | .bool b => .ok (.finite (n - if b then 1 else 0))
  | .int k => .ok (.finite (n - k))
  | .float x =>
      if |(n : ℚ)| < floatOverflow then
        match x with
        | .nan => .ok .nan
        | .infinite negative => .ok (.infinite !negative)
        | .finite q =>
            match parseFloat (binary64 n - q) with
            | some r => .ok (.finite r)
            | none => .ok (.infinite (0 < q))
      else .error (.overflowError "int too large to convert to float")
  | _ => .error (.typeError "unsupported operand types for -")

/-- `x > y` of two numbers. -/
def greater (x y : PyFloat) : Bool := y.le x && !x.le y

/-- Not from the future and not too old. -/
def checkAge (cutoff : Value) (inputEnd maxAge : ℤ) :
    Except ArtifactError Unit :=
  match cutoff.number? with
  | none =>
      .error (.exception (.typeError "'>' not supported between instances"))
  | some x =>
      if greater x (.finite inputEnd) then
        .error (.refused .stale "the fit cutoff is after the input end")
      else
        match subtract inputEnd cutoff with
        | .error e => .error (.exception e)
        | .ok age =>
            if greater age (.finite maxAge) then
              .error (.refused .stale s!"the fit is older than {maxAge} s")
            else .ok ()

/-- `decode`: the fit in the bytes, after every check. -/
def decode (data : Bytes) (expected : String) (binding : Binding)
    (ks : KernelSettings) (inputEnd maxAge : ℤ) :
    Except ArtifactError E1Fit :=
  if maxArtifactBytes < data.length ∨ L.sha256Hex data ≠ expected then
    .error (.refused .digest "the artifact bytes are not the expected ones")
  else do
    let (fit, bound) ← unpack L data
    checkBinding bound binding
    if !(fit.settings.eq (.dict ks.canonical)) ∨
        fit.hw.season.length ≠ ks.m ∨ fit.arCoef.length ≠ ks.arOrder + 1 then
      .error (.refused .incompatible "fitted with other kernel settings")
    else
      checkAge fit.cutoff inputEnd maxAge
      .ok fit

/-- An artifact that is not refused has the expected bytes, few enough, and
passed the check of its age. -/
theorem decode_eq_ok {data : Bytes} {expected : String} {binding : Binding}
    {ks : KernelSettings} {inputEnd maxAge : ℤ} {fit : E1Fit}
    (h : decode L data expected binding ks inputEnd maxAge = .ok fit) :
    data.length ≤ maxArtifactBytes ∧ L.sha256Hex data = expected ∧
      checkAge fit.cutoff inputEnd maxAge = .ok () := by
  unfold decode at h
  split at h
  · cases h
  rename_i hbytes
  rw [not_or, not_not, not_lt] at hbytes
  simp only [Except.bind_eq_ok_iff] at h
  obtain ⟨⟨found, bound⟩, -, _, -, h⟩ := h
  split at h
  · cases h
  obtain ⟨_, hage, h⟩ := Except.bind_eq_ok_iff.mp h
  cases h
  exact ⟨hbytes.1, hbytes.2, hage⟩

end Decode

/-- A cutoff whose age could be checked is a finite number, or a NaN. -/
theorem number?_of_checkAge {cutoff : Value} {inputEnd maxAge : ℤ}
    (h : checkAge cutoff inputEnd maxAge = .ok ()) :
    cutoff = .float .nan ∨ ∃ q, cutoff.number? = some (.finite q) := by
  cases cutoff with
  | float x =>
      cases x with
      | finite q => exact .inr ⟨q, rfl⟩
      | nan => exact .inl rfl
      | infinite negative =>
          unfold checkAge subtract at h
          cases negative with
          | false => cases h
          | true =>
              dsimp only [Value.number?] at h
              by_cases hfloat : |(inputEnd : ℚ)| < floatOverflow
              · simp only [if_pos hfloat] at h
                cases h
              · simp only [if_neg hfloat] at h
                cases h
  | bool b => exact .inr ⟨_, rfl⟩
  | int n => exact .inr ⟨_, rfl⟩
  | none => cases h
  | str s => cases h
  | list items => cases h
  | dict members => cases h

end Artifacts

end PredictiveAutoscaler.Forecasting
