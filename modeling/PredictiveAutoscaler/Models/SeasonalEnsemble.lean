/-
The seasonal ensemble: Holt-Winters averaged with a seven-day profile and an
AR(3) of its residual, both refitted every six hours, and the capacity margin
taken from the errors of its own past forecasts.  Numbers are exact; an absent
one is a NaN.
-/
import Mathlib.Algebra.BigOperators.Group.List.Basic
import Mathlib.Algebra.Order.Floor.Defs
import Mathlib.Data.List.Sort
import Mathlib.Data.Rat.Floor
import PredictiveAutoscaler.CanonicalJson

namespace PredictiveAutoscaler.Models

/-- The 64 bits of a double. -/
abbrev Double := UInt64

namespace Double

/-- What a double is worth; a NaN is worth nothing, nor is an infinity. -/
def value (v : Double) : Option ℚ :=
  let e : ℕ := v.toNat / 2 ^ 52 % 2048
  let f : ℕ := v.toNat % 2 ^ 52
  let m : ℤ := if e = 0 then f else 2 ^ 52 + f
  if e = 2047 then none
  else
    some (mkRat ((if v.toNat / 2 ^ 63 = 0 then m else -m) * 2 ^ (e - 1))
      (2 ^ 1074))

/-- Its bytes, the lowest first. -/
def bytes (v : Double) : List UInt8 :=
  (List.range 8).map fun i => UInt8.ofNat (v.toNat / 256 ^ i)

end Double

/-- `np.mean`. -/
def mean (vals : List ℚ) : ℚ := vals.sum / vals.length

/-- `np.clip`. -/
def clip (x lo hi : ℚ) : ℚ := min (max x lo) hi

namespace SeasonalEnsemble

def slotSeconds : ℤ := 600

/-- Ten-minute slots per day. -/
def season : ℕ := 144

def steps : ℕ := 6

def refitSeconds : ℤ := 6 * 3600

def hwWindowSlots : ℕ := 14 * season

def profileDays : ℕ := 7

def arOrder : ℕ := 3

def arWindowSlots : ℕ := 7 * season

def minArRows : ℕ := 36

def hwWeight : ℚ := 1 / 2

def marginWindowSlots : ℕ := season

def marginMinSamples : ℕ := 30

def marginClipFraction : ℚ := 4 / 5

def staleGenerations : ℕ := 1

def version : String := "seasonal-ensemble-1.2.0"

/-- Observations on a ten-minute grid from `t0` on. -/
structure Grid where
  t0 : ℤ
  size : ℕ
  y : ℕ → Double

namespace Grid

variable (g : Grid)

def ts (i : ℕ) : ℤ := g.t0 + i * slotSeconds

def index (t : ℤ) : ℤ := (t - g.t0) / slotSeconds

/-- The observed value at an index, if there is one. -/
def at? (i : ℕ) : Option ℚ := (g.y i).value

/-- `filled`: the last observation carried forward. -/
def filled : ℕ → Option ℚ
  | 0 => g.at? 0
  | i + 1 => (g.at? (i + 1)).or (filled i)

end Grid

theorem filled_or (g : Grid) (n : ℕ) :
    g.filled n = (g.at? n).or (if n = 0 then none else g.filled (n - 1)) := by
  cases n with
  | zero =>
      unfold Grid.filled
      cases g.at? 0 <;> rfl
  | succ n => rfl

/-- The state of a run: the season's states, the position in it, the level, the
trend and the squared error so far. -/
structure HwLoop where
  s : List ℚ
  pos : ℕ
  level : ℚ
  trend : ℚ
  sse : ℚ

def hwStep (m : ℕ) (alpha beta gamma : ℚ) (loop : HwLoop) (obs : ℚ) : HwLoop :=
  let sp := loop.s.getD loop.pos 0
  let pred := loop.level + loop.trend + sp
  let err := obs - pred
  let lNew := alpha * (obs - sp) + (1 - alpha) * (loop.level + loop.trend)
  { s := loop.s.set loop.pos
      (gamma * (obs - loop.level - loop.trend) + (1 - gamma) * sp)
    pos := if loop.pos + 1 = m then 0 else loop.pos + 1
    level := lNew
    trend := beta * (lNew - loop.level) + (1 - beta) * loop.trend
    sse := loop.sse + err * err }

/-- `hw_run`: the squared error, the level, the trend and the season's states
from the next observation on. -/
def hwRun (y : List ℚ) (alpha beta gamma level trend : ℚ) (season : List ℚ) :
    ℚ × ℚ × ℚ × List ℚ :=
  let loop := y.foldl (hwStep season.length alpha beta gamma)
    ⟨season, 0, level, trend, 0⟩
  (loop.sse, loop.level, loop.trend,
    loop.s.drop loop.pos ++ loop.s.take loop.pos)

structure HWFit where
  alpha : ℚ
  beta : ℚ
  gamma : ℚ
  level0 : ℚ
  trend0 : ℚ
  season0 : List ℚ
  level : ℚ
  trend : ℚ
  season : List ℚ
  sse : ℚ
  nTrain : ℕ
  nit : ℕ
  message : String

section Profile

variable (g : Grid)

/-- The observations of the same slot on the previous seven days. -/
def profileValues (i : ℤ) : List ℚ :=
  (List.range' 1 profileDays).filterMap fun d : ℕ =>
    let k : ℤ := i - season * d
    if 0 ≤ k ∧ k < g.size then g.at? k.toNat else none

/-- `profile_at`: their mean. -/
def profileAt (i : ℤ) : Option ℚ :=
  match profileValues g i with
  | [] => none
  | vals => some (mean vals)

/-- `residuals` at one index. -/
def residual (t : ℕ) : Option ℚ :=
  match profileAt g t, g.filled t with
  | some p, some v => some (v - p)
  | _, _ => none

end Profile

/-- A row of the design and its target: three lags and the residual after
them, all observed. -/
def arRow (r : ℕ → Option ℚ) (t : ℕ) : Option (List ℚ × ℚ) :=
  match r t, r (t - 1), r (t - 2), r (t - 3) with
  | some target, some a, some b, some c => some ([1, a, b, c], target)
  | _, _, _, _ => none

/-- The rows of the seven days up to the boundary. -/
def arRows (r : ℕ → Option ℚ) (boundary : ℕ) : List (List ℚ × ℚ) :=
  let first := max arOrder (boundary + 1 + arOrder - arWindowSlots)
  (List.range' first (boundary + 1 - first)).filterMap (arRow r)

/-- The solvers: a Holt-Winters fit and least squares, which may each fail. -/
structure Fits where
  fitHw : List ℚ → Except String HWFit
  lstsq : List (List ℚ) → List ℚ → Except String (List (Option ℚ))

/-- `fit_ar`. -/
def fitAr (fits : Fits) (r : ℕ → Option ℚ) (boundary : ℕ) :
    Except String (List ℚ × ℕ) :=
  let rows := arRows r boundary
  if rows.length < minArRows then
    .error s!"AR fit needs {minArRows} complete rows, got {rows.length}"
  else
    match fits.lstsq (rows.map Prod.fst) (rows.map Prod.snd) with
    | .error e => .error e
    | .ok coef =>
        match coef.mapM id with
        | some coef => .ok (coef, rows.length)
        | none => .error "AR coefficients not finite"

/-- `ForecastUnavailable`: each boundary that was tried and what it raised, or
the reason. -/
inductive Unavailable
  | noGeneration (errors : List (ℤ × String))
  | missingResidual
deriving DecidableEq, Repr

/-- `_usable_generation`: what `generationFor` gives for the boundary, or else
for the one before it, and whether it was the latter. -/
def usable {G : Type} (generationFor : ℤ → Except String G) (boundary : ℤ) :
    Except Unavailable (G × Bool) :=
  let rec attempt (errors : List (ℤ × String)) :
      List ℕ → Except Unavailable (G × Bool)
    | [] => .error (.noGeneration errors)
    | back :: rest =>
        let tried := boundary - back * refitSeconds
        match generationFor tried with
        | .ok gen => .ok (gen, decide (0 < back))
        | .error e => attempt (errors ++ [(tried, e)]) rest
  attempt [] (List.range (staleGenerations + 1))

structure Generation (Digest : Type) where
  boundaryTs : ℤ
  hw : HWFit
  arCoef : List ℚ
  arRows : ℕ
  fingerprint : Digest
  hwWindowStartTs : ℤ

section Generations

variable {Digest : Type} (fits : Fits) (sha256 : List UInt8 → Digest)
  (g : Grid)

def hwLo (b : ℕ) : ℕ := b + 1 - hwWindowSlots

def arLo (b : ℕ) : ℕ := b - arWindowSlots - profileDays * season

def ascii (text : List Char) : List UInt8 :=
  text.map fun c => UInt8.ofNat c.toNat

/-- The text and the bytes that are hashed. -/
def fingerprinted (boundaryTs : ℤ) (b : ℕ) : List UInt8 :=
  let lo := min (hwLo b) (arLo b)
  ascii (version.toList ++ '|' :: decimal boundaryTs ++
    '|' :: decimal (g.ts (hwLo b)) ++ '|' :: decimal (g.ts (arLo b))) ++
    (List.range' lo (b + 1 - lo)).flatMap fun i => (g.y i).bytes

/-- The filled observations of the Holt-Winters window. -/
def hwWindow (b : ℕ) : List (Option ℚ) :=
  (List.range' (hwLo b) (b + 1 - hwLo b)).map g.filled

/-- The window from its first observation on. -/
def train (b : ℕ) : List (Option ℚ) := (hwWindow g b).dropWhile Option.isNone

/-- The index of the boundary, when it lies in the series and something was
observed up to it. -/
def boundaryIndex (boundaryTs : ℤ) : Except String ℕ :=
  let b := g.index boundaryTs
  if b < 0 ∨ g.size ≤ b then
    .error "boundary outside the observed series"
  else if train g b.toNat = [] then
    .error "no observations before the boundary"
  else .ok b.toNat

/-- The fit itself. -/
def fitAt (boundaryTs : ℤ) (b : ℕ) : Except String (Generation Digest) :=
  match (train g b).mapM id with
  | none =>
      .error "Holt-Winters training input must be finite (forward-filled)"
  | some values =>
      match fits.fitHw values with
      | .error e => .error e
      | .ok hw =>
          match fitAr fits (residual g) b with
          | .error e => .error e
          | .ok (coef, rows) =>
              .ok ⟨boundaryTs, hw, coef, rows,
                sha256 (fingerprinted g boundaryTs b),
                g.ts (hwLo b + ((hwWindow g b).length - (train g b).length))⟩

/-- `generation_for` without its cache. -/
def generationFor (boundaryTs : ℤ) : Except String (Generation Digest) :=
  match boundaryIndex g boundaryTs with
  | .error e => .error e
  | .ok b => fitAt fits sha256 g boundaryTs b

def boundaryOf (ts : ℤ) : ℤ := ts - ts % refitSeconds

/-- The next residual of the recursion, when the last three are there. -/
def arNext (c : List ℚ) : List (Option ℚ) → Option ℚ
  | [some a, some b, some d] =>
      some (c.getD 0 0 + c.getD 1 0 * a + c.getD 2 0 * b + c.getD 3 0 * d)
  | _ => none

/-- The recursion over the steps. -/
def arForecast (c : List ℚ) (hist : List (Option ℚ)) : ℕ → List (Option ℚ)
  | 0 => []
  | n + 1 =>
      let next := arNext c hist
      next :: arForecast c (next :: hist.take 2) n

/-- The residual at an index that may lie before the series. -/
def histAt (t : ℤ) : Option ℚ := if 0 ≤ t then residual g t.toNat else none

def addFinite : Option ℚ → Option ℚ → Option ℚ
  | some a, some b => some (a + b)
  | _, _ => none

structure Components (Digest : Type) where
  hw : List (Option ℚ)
  profileAr : List (Option ℚ)
  raw : List (Option ℚ)
  rawFinite : List (Option ℚ)
  generation : Generation Digest
  staleGeneration : Bool

/-- Holt-Winters after the observations since the boundary. -/
def hwForecast (hw : HWFit) (b origin : ℕ) : List (Option ℚ) :=
  match ((List.range' (b + 1) (origin - b)).map g.filled).mapM id with
  | none => List.replicate steps none
  | some since =>
      let (_, level, trend, seasonal) := hwRun since hw.alpha hw.beta hw.gamma
        hw.level hw.trend hw.season
      (List.range' 1 steps).map fun h : ℕ =>
        some (level + h * trend + seasonal.getD ((h - 1) % season) 0)

/-- The profile of each target slot. -/
def targetProfiles (origin : ℕ) : List (Option ℚ) :=
  (List.range' 1 steps).map fun s : ℕ => profileAt g (origin + s)

/-- The profile of each target slot and the recursion from the three latest
residuals. -/
def profileForecast (coef : List ℚ) (origin : ℕ) : List (Option ℚ) :=
  let hist := [histAt g origin, histAt g (origin - 1), histAt g (origin - 2)]
  List.zipWith addFinite (targetProfiles g origin)
    (arForecast coef hist steps)

/-- A step's average, when both components are there. -/
def rawStep : Option ℚ → Option ℚ → Option ℚ
  | some a, some b => some (max 0 (hwWeight * a + (1 - hwWeight) * b))
  | _, _ => none

/-- Under the partial rule `finite` one component serves alone. -/
def rawFiniteStep : Option ℚ → Option ℚ → Option ℚ
  | some a, some b => rawStep (some a) (some b)
  | some a, none => some (max 0 a)
  | none, some b => some (max 0 b)
  | none, none => none

/-- `components_at`. -/
def componentsAt (origin : ℕ) : Except Unavailable (Components Digest) :=
  match usable (generationFor fits sha256 g) (boundaryOf (g.ts origin)) with
  | .error e => .error e
  | .ok (gen, stale) =>
      let hw := hwForecast g gen.hw (g.index gen.boundaryTs).toNat origin
      let profileAr := profileForecast g gen.arCoef origin
      .ok ⟨hw, profileAr, List.zipWith rawStep hw profileAr,
        List.zipWith rawFiniteStep hw profileAr, gen, stale⟩

end Generations

/-- `MARGIN_MODES`. -/
inductive MarginMode
  | absolute
  | relative
deriving DecidableEq, Repr

/-- What a forecaster makes of a grid at an index: its raw steps. -/
abbrev RawFn := Grid → ℕ → Except Unavailable (List (Option ℚ))

section Margin

variable (rawFn : RawFn) (g : Grid)

/-- One sample: the error of the lead of a forecast, when its tick and the two
slots after it were observed. -/
def sampleOf (mode : MarginMode) (here a10 a20 : Option ℚ)
    (forecast : Except Unavailable (List (Option ℚ))) : Option ℚ :=
  match a10, a20, here with
  | some a10, some a20, some _ =>
      match forecast with
      | .error _ => none
      | .ok raw =>
          match raw.getD 0 none, raw.getD 1 none with
          | some r0, some r1 =>
              let lead := max r0 r1
              match mode with
              | .absolute => some (max a10 a20 - lead)
              | .relative =>
                  if lead ≤ 0 then none else some (max a10 a20 / lead - 1)
          | _, _ => none
  | _, _, _ => none

def sampleAt (mode : MarginMode) (j : ℕ) : Option ℚ :=
  sampleOf mode (g.at? j) (g.at? (j + 1)) (g.at? (j + 2)) (rawFn g j)

/-- The ticks whose errors count. -/
def marginTicks (origin : ℕ) : List ℕ :=
  let first := origin + 1 - marginWindowSlots
  List.range' first (origin - 1 - first)

def marginSamples (mode : MarginMode) (origin : ℕ) : List ℚ :=
  (marginTicks origin).filterMap (sampleAt rawFn g mode)

/-- `np.quantile`, linear between the two nearest ranks. -/
def quantile (samples : List ℚ) (q : ℚ) : ℚ :=
  let sorted := samples.insertionSort (· ≤ ·)
  let h := q * (samples.length - 1 : ℕ)
  let i := ⌊h⌋.toNat
  let x := sorted.getD i 0
  x + (h - i) * (sorted.getD (i + 1) x - x)

/-- `margin_at`: the margin and the number of its samples. -/
def marginAt (origin : ℕ) (lead q : ℚ) (mode : MarginMode) :
    Except String (ℚ × ℕ) :=
  if 0 < q ∧ q < 1 then
    let samples := marginSamples rawFn g mode origin
    if samples.length < marginMinSamples then .ok (0, samples.length)
    else
      let x := quantile samples q
      match mode with
      | .relative => .ok (lead * clip x 0 marginClipFraction, samples.length)
      | .absolute => .ok (clip x 0 (marginClipFraction * lead), samples.length)
  else .error "margin quantile must lie in (0, 1)"

end Margin

end SeasonalEnsemble

end PredictiveAutoscaler.Models
