/-
Strict request-rate history for forecast contract v2: one signal's rates on a
grid, read in contiguous chunks of a bounded size, each observed point with
the time at which its chunk was received.
-/
import PredictiveAutoscaler.Forecasting.Contracts
import PredictiveAutoscaler.JsonPaths

namespace PredictiveAutoscaler.Forecasting.History

/-- What ends a read. -/
inductive ReadError
  | valueError (message : String)
  | historyRefused (message : String)
  | historyUnavailable (message : String)
  | overflowError (message : String)
deriving DecidableEq, Repr

/-- The newest finalized grid point at a wall time, in doubles. -/
def watermark (now : ℚ) (interval : ℕ) (settlement : ℤ) : ℤ :=
  ⌊binary64 (binary64 (now - settlement) / interval)⌋ * interval

/-- The chunks from a start on, for at most a number of rounds. -/
def chunksFrom (stop interval maxPoints : ℤ) : ℕ → ℤ → List (ℤ × ℤ)
  | 0, _ => []
  | rounds + 1, s =>
      if s ≤ stop then
        let e := min stop (s + (maxPoints - 1) * interval)
        (s, e) :: chunksFrom stop interval maxPoints rounds (e + interval)
      else []

/-- The chunks that cover the grid from one bound to another.  There are at
most as many as points. -/
def planChunks (start stop interval maxPoints : ℤ) :
    Except ReadError (List (ℤ × ℤ)) :=
  if (stop - start) % interval ≠ 0 ∨ stop < start ∨ maxPoints < 1 then
    .error (.valueError
      "chunk plan needs grid-aligned bounds and a positive chunk size")
  else
    .ok (chunksFrom stop interval maxPoints
      ((stop - start) / interval + 1).toNat start)

section Answer

variable (floatText : String → Option PyFloat) (lo hi interval : ℤ)

/-- `math.isfinite` and `float` convert an integer first. -/
def tooLarge : ReadError := .overflowError "int too large to convert to float"

/-- A sample's time: a whole number, not a boolean. -/
def sampleTime : Value → Except ReadError ℤ
  | .int n => if (parseFloat n).isNone then .error tooLarge else .ok n
  | .float (.finite q) =>
      if q = ⌊q⌋ then .ok ⌊q⌋
      else .error (.historyRefused "malformed sample timestamp")
  | _ => .error (.historyRefused "malformed sample timestamp")

def finiteRate : PyFloat → Except ReadError ℚ
  | .finite q =>
      if q < 0 then
        .error (.historyRefused "sample is not a finite, non-negative rate")
      else .ok q
  | _ => .error (.historyRefused "sample is not a finite, non-negative rate")

/-- A sample's rate: a text or a number that reads as a double. -/
def sampleRate : Value → Except ReadError ℚ
  | .str s =>
      match floatText s with
      | some x => finiteRate x
      | none => .error (.historyRefused "non-numeric sample")
  | .int n =>
      match parseFloat n with
      | some q => finiteRate (.finite q)
      | none => .error tooLarge
  | .float x => finiteRate x
  | _ => .error (.historyRefused "non-numeric sample")

/-- One sample, after those up to a last time. -/
def parseSample (last : Option ℤ) : Value → Except ReadError (ℤ × ℚ)
  | .list [ts, raw] => do
      let t ← sampleTime ts
      if t % interval ≠ 0 then
        .error (.historyRefused s!"sample at {t} is off the {interval} s grid")
      else if ¬(lo ≤ t ∧ t ≤ hi) then
        .error (.historyRefused
          s!"sample at {t} is outside its chunk {lo}..{hi}")
      else if ∃ x ∈ last, t ≤ x then
        .error (.historyRefused s!"duplicate or unordered sample at {t}")
      else do
        let rps ← sampleRate floatText raw
        return (t, rps)
  | _ => .error (.historyRefused "malformed sample")

def parseSamples (last : Option ℤ) :
    List Value → Except ReadError (List (ℤ × ℚ))
  | [] => .ok []
  | sample :: rest => do
      let p ← parseSample floatText lo hi interval last sample
      let ps ← parseSamples (some p.1) rest
      return p :: ps

/-- A member is this text. -/
def isText (s : String) : Option Value → Bool
  | some (.str t) => t = s
  | _ => false

/-- The samples of an answer: those of its one series, or none. -/
def answerSamples : Value → Except ReadError (List Value)
  | .dict doc =>
      if !isText "success" (doc.lookup "status") then
        .error (.historyRefused "history query status")
      else if (doc.lookup "isPartial").any Value.truthy then
        .error (.historyRefused "partial history answer")
      else
        match doc.lookup "data" with
        | some (.dict data) =>
            if !isText "matrix" (data.lookup "resultType") then
              .error (.historyRefused "the answer is not a matrix")
            else
              match data.lookup "result" with
              | some (.list []) => .ok []
              | some (.list [.dict series]) =>
                  match series.lookup "values" with
                  | some (.list samples) => .ok samples
                  | _ => .error (.historyRefused "series without values")
              | some (.list [_]) =>
                  .error (.historyRefused "series without values")
              | some (.list result) =>
                  .error (.historyRefused
                    s!"{result.length} series, want at most one")
              | _ => .error (.historyRefused "no series, want at most one")
        | _ => .error (.historyRefused "the answer is not a matrix")
  | _ => .error (.historyRefused "history query status")

def parseChunk (doc : Value) : Except ReadError (List (ℤ × ℚ)) := do
  let samples ← answerSamples doc
  parseSamples floatText lo hi interval none samples

end Answer

/-- The query of a resolved signal, its hash and its contract. -/
structure Signal where
  query : String
  sha256 : String
  contract : String

structure Request where
  signal : Signal
  now : ℚ
  interval : ℕ
  historySeconds : ℤ
  settlement : ℤ := 120

structure Limits where
  deadline : ℚ := 20
  maxChunkBytes : ℤ := 8 * 2 ^ 20
  maxTotalBytes : ℤ := 32 * 2 ^ 20
  maxPoints : ℤ := 10080

/-- The parameters of one exchange. -/
structure RangeQuery where
  query : String
  start : ℤ
  stop : ℤ
  step : ℕ

/-- How one exchange ends. -/
inductive Fetched (Body : Type)
  | bodyTooLarge (message : String)
  | transportFailure (message : String)
  | answered (status : ℕ) (body : Body)

/-- What is around a read: the backend's answer to the exchange of a chunk,
under a deadline and a byte budget, the readings of the clocks by their
number, and the functions on bodies and texts. -/
structure Transport (Body : Type) where
  fetch : ℕ → RangeQuery → ℚ → ℤ → Fetched Body
  receiptMs : ℕ → ℤ
  monotonic : ℕ → ℚ
  size : Body → ℕ
  loads : Body → Option Value
  floatText : String → Option PyFloat
  bodiesSha256 : List Body → String
  querySha256 : String → String

/-- One signal's history on its grid; no value is a missing point. -/
structure RpsGrid where
  querySha256 : String
  intervalSeconds : ℕ
  start : ℤ
  stop : ℤ
  values : List (Option ℚ)
  receivedAtMs : List (Option ℤ)
  readCompletedMs : ℤ
  responseSha256 : String
  chunks : ℕ
deriving DecidableEq

structure ReadState (Body : Type) where
  values : List (Option ℚ)
  received : List (Option ℤ)
  bodies : List Body := []
  used : ℤ := 0
  last : Option ℤ := none

def Request.stop (r : Request) : ℤ := watermark r.now r.interval r.settlement

def Request.start (r : Request) : ℤ := r.stop - r.historySeconds + r.interval

section Read

variable {Body : Type} (T : Transport Body) (limits : Limits) (r : Request)

/-- The samples of a chunk into their slots; each is in range, since it is
within its chunk. -/
def storeSamples (atMs : ℤ) :
    List (ℤ × ℚ) → ReadState Body → Except ReadError (ReadState Body)
  | [], st => .ok st
  | (t, rps) :: rest, st =>
      if ∃ x ∈ st.last, t ≤ x then
        .error (.historyRefused s!"duplicate or unordered sample at {t}")
      else
        let i := ((t - r.start) / r.interval).toNat
        storeSamples atMs rest
          { st with
            last := some t
            values := st.values.set i (some rps)
            received := st.received.set i (some atMs) }

/-- The turn of a chunk. -/
def readChunk (k : ℕ) (chunk : ℤ × ℤ) (st : ReadState Body) :
    Except ReadError (ReadState Body) :=
  let left := limits.deadline - (T.monotonic (k + 1) - T.monotonic 0)
  let budget := min limits.maxChunkBytes (limits.maxTotalBytes - st.used)
  if left ≤ 0 then
    .error (.historyUnavailable "history read exceeded its deadline")
  else if budget ≤ 0 then
    .error (.historyRefused
      s!"history exceeds {limits.maxTotalBytes} bytes in total")
  else
    match T.fetch k ⟨r.signal.query, chunk.1, chunk.2, r.interval⟩ left
        budget with
    | .bodyTooLarge e =>
        .error (.historyRefused s!"history chunk exceeds its byte budget: {e}")
    | .transportFailure e =>
        .error (.historyUnavailable s!"history query failed: {e}")
    | .answered status body =>
        let used := st.used + T.size body
        if 500 ≤ status ∨ status = 401 ∨ status = 403 ∨ status = 429 then
          .error (.historyUnavailable
            s!"metrics backend answered HTTP {status}")
        else if status ≠ 200 then
          .error (.historyRefused
            s!"metrics backend refused the query: HTTP {status}")
        else if limits.maxTotalBytes < used then
          .error (.historyRefused
            s!"history exceeds {limits.maxTotalBytes} bytes in total")
        else
          match T.loads body with
          | none => .error (.historyRefused "history answer is not JSON")
          | some doc => do
              let samples ← parseChunk T.floatText chunk.1 chunk.2 r.interval
                doc
              storeSamples r (T.receiptMs k) samples
                { st with used, bodies := st.bodies ++ [body] }

def readChunks : ℕ → List (ℤ × ℤ) → ReadState Body →
    Except ReadError (ReadState Body)
  | _, [], st => .ok st
  | k, chunk :: rest, st => do
      let st' ← readChunk T limits r k chunk st
      readChunks (k + 1) rest st'

/-- The parameters are usable. -/
def Request.check : Except ReadError Unit :=
  if r.signal.contract ≠ signalContract ∨ r.signal.query = "" then
    .error (.valueError ("history needs a resolved signal under the " ++
      "requests-per-second/v1 contract"))
  else if T.querySha256 r.signal.query ≠ r.signal.sha256 then
    .error (.valueError "the signal's query does not match its hash")
  else if r.interval ∉ allowedIntervals then
    .error (.valueError s!"interval {r.interval} is not one of the cadences")
  else if r.historySeconds < r.interval ∨ r.historySeconds % r.interval ≠ 0 ∨
      (maxHistoryDays : ℤ) * 86400 < r.historySeconds then
    .error (.valueError
      (s!"history {r.historySeconds} s must be a multiple of {r.interval} s " ++
        s!"up to {maxHistoryDays} days"))
  else if r.settlement < 0 then
    .error (.valueError "settlement must be a non-negative integer")
  else .ok ()

/-- Every point is missing. -/
def Request.initial : ReadState Body :=
  let n := (r.historySeconds / r.interval).toNat
  { values := List.replicate n none, received := List.replicate n none }

/-- The finalized history of a signal up to the watermark. -/
def readRpsHistory : Except ReadError RpsGrid := do
  r.check T
  let plan ← planChunks r.start r.stop r.interval limits.maxPoints
  let st ← readChunks T limits r 0 plan r.initial
  if limits.deadline < T.monotonic (plan.length + 1) - T.monotonic 0 then
    .error (.historyUnavailable "history read exceeded its deadline")
  else
    return {
      querySha256 := r.signal.sha256
      intervalSeconds := r.interval
      start := r.start
      stop := r.stop
      values := st.values
      receivedAtMs := st.received
      readCompletedMs := T.receiptMs plan.length
      responseSha256 := T.bodiesSha256 st.bodies
      chunks := plan.length }

end Read

end PredictiveAutoscaler.Forecasting.History
