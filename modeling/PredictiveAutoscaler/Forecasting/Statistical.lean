/-
The statistical kernels: Holt-Winters on the complete segment before a cutoff,
a seven-day profile with the AR of its residual, and the product of both, at
any cadence.  Numbers are exact; an absent one is a NaN.
-/
import PredictiveAutoscaler.Forecasting.ArtifactFile
import PredictiveAutoscaler.Models.HoltWinters

namespace PredictiveAutoscaler.Forecasting.Statistical

open Models MovingAverage

/-- `FAILURE_REASONS`. -/
inductive FailureReason
  | history
  | numeric
  | timeout
  | resource
  | storage
deriving DecidableEq, Repr

/-- `KernelUnavailable`, or another exception. -/
inductive KernelError
  | unavailable (reason : FailureReason) (message : String)
  | raised (text : String)
deriving DecidableEq, Repr

def day : ℕ := 86400

def arMaxRoot : ℚ := binary64 (999 / 1000)

/-- What a kernel computes with. -/
structure KernelSolvers extends Solvers where
  rootModuli : List ℚ → List ℚ

/-- A NaN, or a number that is not negative. -/
def isRate (v : Double) : Bool :=
  match v.value with
  | some x => 0 ≤ x
  | none => v.toNat % 2 ^ 52 ≠ 0

/-- `Series`: the value at `start + i * interval`, a NaN where nothing was
observed. -/
structure Series where
  start : ℤ
  interval : ℤ
  values : List Double
  rates : ∀ v ∈ values, isRate v = true

/-- `xs[a:b]`; a negative index counts from the end. -/
def slice {α : Type} (xs : List α) (a b : ℤ) : List α :=
  let place := fun i : ℤ => (if i < 0 then i + xs.length else i).toNat
  (xs.take (place b)).drop (place a)

namespace Series

variable (s : Series)

/-- `Series.end`. -/
def stop : ℤ := s.start + (s.values.length - 1) * s.interval

def index (t : ℤ) : Except KernelError ℤ :=
  if (t - s.start) % s.interval ≠ 0 then
    .error (.raised s!"{t} is off the grid")
  else .ok ((t - s.start) / s.interval)

/-- `at`: the value observed at a time, if there is one. -/
def at? (t : ℤ) : Option ℚ :=
  let i := (t - s.start) / s.interval
  if (t - s.start) % s.interval = 0 ∧ 0 ≤ i ∧ i < s.values.length then
    (s.values.getD i.toNat 0).value
  else none

/-- `digest` of the values between two times. -/
def digest {Digest : Type} (sha256 : List UInt8 → Digest) (lo hi : ℤ) :
    Except KernelError Digest := do
  let a ← s.index lo
  let b ← s.index hi
  .ok (sha256 (SeasonalEnsemble.ascii
      s!"series|{s.interval}|{lo}|{hi}|".toList ++
    (slice s.values a (b + 1)).flatMap Double.bytes))

end Series

/-- `range(lo, hi, step)`. -/
def timeRange (lo hi step : ℤ) : List ℤ :=
  (List.range ((hi - lo + step - 1) / step).toNat).map fun i : ℕ => lo + i * step

theorem mem_timeRange {lo hi step t : ℤ} (hstep : 0 < step)
    (ht : t ∈ timeRange lo hi step) : lo ≤ t ∧ t < hi := by
  obtain ⟨i, hi', rfl⟩ := List.mem_map.mp ht
  rw [List.mem_range] at hi'
  have hcount : (i : ℤ) + 1 ≤ (hi - lo + step - 1) / step := by omega
  have hlast := (Int.le_ediv_iff_mul_le hstep).mp hcount
  have hfirst : 0 ≤ (i : ℤ) * step :=
    Int.mul_nonneg (Int.natCast_nonneg i) hstep.le
  constructor
  · omega
  · linarith

/-- The grid times after `c` up to `last`, those up to `stop` first. -/
theorem timeRange_append {c stop last step : ℤ} (hstep : 0 < step)
    (hc : c ≤ stop) (hgrid : step ∣ stop - c) (hlast : stop ≤ last) :
    timeRange (c + step) (last + 1) step =
      timeRange (c + step) (stop + 1) step ++
        timeRange (stop + step) (last + 1) step := by
  obtain ⟨n, hn⟩ := hgrid
  have hn0 : 0 ≤ n := by
    by_contra hneg
    have := Int.mul_neg_of_pos_of_neg hstep (not_le.mp hneg)
    omega
  obtain ⟨k, rfl⟩ := Int.eq_ofNat_of_zero_le hn0
  obtain rfl : stop = c + step * k := by omega
  have hcount : ∀ x y : ℤ, y + 1 - (x + step) + step - 1 = y - x := by
    intro x y
    ring
  have hall : (last - c) / step = k + (last - (c + step * k)) / step := by
    rw [show last - c = (last - (c + step * k)) + step * k by ring,
      Int.add_mul_ediv_left _ _ hstep.ne', Int.add_comm]
  have hfirst : (c + step * k - c) / step = k := by
    rw [show c + step * k - c = step * k by ring,
      Int.mul_ediv_cancel_left _ hstep.ne']
  have hrest : 0 ≤ (last - (c + step * k)) / step :=
    Int.ediv_nonneg (by omega) hstep.le
  unfold timeRange
  rw [hcount, hcount, hcount, hfirst, hall,
    Int.toNat_add (Int.natCast_nonneg k) hrest, Int.toNat_natCast,
    List.range_add, List.map_append, List.map_map]
  refine congrArg _ (List.map_congr_left fun i _ => ?_)
  simp only [Function.comp_apply]
  push_cast
  ring

section HoltWinters

variable (S : KernelSolvers)

/-- The trend of the first cycles: the centred mean of a season from cumulative
sums, averaged with its neighbour for an even one. -/
def cumulativeTrend (m : ℕ) (x : List ℚ) : List (Option ℚ) :=
  let trend := centredMean m x
  if m % 2 = 0 then averageNext trend else trend

/-- `heuristic_init`. -/
def heuristicInit (y : List ℚ) (m : ℕ) :
    Except KernelError (ℚ × ℚ × List ℚ) :=
  if y.length < 2 * m then
    .error (.unavailable .history
      "Holt-Winters needs at least two full seasonal cycles")
  else
    let k := initCycles y.length m
    let x := y.take (m * k)
    match initialStates S.pinv m k x (cumulativeTrend m x) with
    | .error text => .error (.raised text)
    | .ok states => .ok states

/-- `hw_run`, statement for statement that of the ensemble. -/
def hwRun (y : List ℚ) (alpha beta gamma level trend : ℚ) (season : List ℚ) :
    ℚ × ℚ × ℚ × List ℚ :=
  SeasonalEnsemble.hwRun y alpha beta gamma level trend season

structure HWState where
  alpha : ℚ
  beta : ℚ
  gamma : ℚ
  level : ℚ
  trend : ℚ
  season : List ℚ
  sse : ℚ
  nTrain : ℕ
  segmentStart : ℤ

/-- `fit_hw`; exact numbers are finite. -/
def fitHw (y : List (Option ℚ)) (m : ℕ) (segmentStart : ℤ) (maxiter : ℕ) :
    Except KernelError HWState :=
  match y.mapM id with
  | none =>
      .error (.unavailable .history "Holt-Winters input must be complete")
  | some obs => do
      let (level0, trend0, season0) ← heuristicInit S obs m
      let run := fun x =>
        let (al, be, ga) := params x
        hwRun obs al be ga level0 trend0 season0
      match bestOf S.toSolvers (fun x => (run x).1) maxiter with
      | none =>
          .error (.unavailable .numeric
            "the Holt-Winters optimizer did not converge from any start")
      | some best =>
          let (al, be, ga) := params best.x
          let (sse, level, trend, rolled) := run best.x
          .ok ⟨al, be, ga, level, trend, rolled, sse, obs.length,
            segmentStart⟩

end HoltWinters

section Profile

variable (series : Series) (ks : KernelSettings)

def profileValues (t : ℤ) : List ℚ :=
  (List.range' 1 ks.profileDays).filterMap fun d : ℕ =>
    series.at? (t - d * ks.seasonSeconds)

/-- `profile`: the mean of enough earlier days. -/
def profile (t : ℤ) : Option ℚ :=
  let vals := profileValues series ks t
  if ks.profileMinSupport ≤ vals.length ∧ vals ≠ [] then some (mean vals)
  else none

def residual (t : ℤ) : Option ℚ :=
  match series.at? t, profile series ks t with
  | some y, some p => some (y - p)
  | _, _ => none

/-- `ar_roots_max`. -/
def arRootsMax (rootModuli : List ℚ → List ℚ) (coef : List ℚ) : ℚ :=
  let phi := coef.drop 1
  if phi.all (· = 0) then 0
  else (rootModuli (1 :: phi.map fun c => -c)).foldl max 0

/-- A complete row: the constant and the lags, the residual and its time. -/
def arRow (t : ℤ) : Option (List ℚ × ℚ × ℤ) :=
  match residual series ks t,
    (List.range' 1 ks.arOrder).mapM fun k : ℕ =>
      residual series ks (t - k * ks.intervalSeconds) with
  | some r, some lags => some (1 :: lags, r, t)
  | _, _ => none

def arRows (cutoff : ℤ) : List (List ℚ × ℚ × ℤ) :=
  let dt : ℤ := ks.intervalSeconds
  let first := max (series.start + ks.arOrder * dt)
    (cutoff - ks.arWindowDays * day + dt + ks.arOrder * dt)
  (timeRange first (cutoff + 1) dt).filterMap (arRow series ks)

/-- `fit_ar`. -/
def fitAr (S : KernelSolvers) (cutoff : ℤ) :
    Except KernelError (List ℚ × ℕ) :=
  let rows := arRows series ks cutoff
  let times := rows.map fun row => row.2.2
  let short := KernelError.unavailable .history
    (s!"AR({ks.arOrder}) needs {ks.arMinRows} complete rows spanning " ++
      s!"{ks.arMinSpanSeconds} s, got {rows.length}")
  if rows.length < ks.arMinRows then .error short
  else
    match times.head?, times.getLast? with
    | some first, some last =>
        if last - first < ks.arMinSpanSeconds then .error short
        else
          match S.lstsq (rows.map Prod.fst) (rows.map fun row => row.2.1) with
          | .error text => .error (.raised text)
          | .ok coef =>
              match coef.mapM id with
              | none =>
                  .error (.unavailable .numeric
                    "AR coefficients are not finite")
              | some coef =>
                  if arRootsMax S.rootModuli coef < arMaxRoot then
                    .ok (coef, rows.length)
                  else
                    .error (.unavailable .numeric
                      "AR recursion is not stable")
    | _, _ => .error (.raised "list index out of range")

end Profile

structure E1Fit (Digest : Type) where
  cutoff : ℤ
  intervalSeconds : ℤ
  hw : HWState
  arCoef : List ℚ
  arRows : ℕ
  inputLo : ℤ
  inputSha256 : Digest
  settings : List (String × Value)

structure E1Forecast where
  hw : List ℚ
  profileAr : List ℚ
  points : List ℚ

/-- The first slot of the complete run that ends at slot `i`, from slot `j`
downwards. -/
def segmentFrom (values : List Double) (i maxSlots : ℕ) : ℕ → ℕ
  | 0 => 0
  | j + 1 =>
      if i - j < maxSlots ∧ (values.getD j 0).value.isSome then
        segmentFrom values i maxSlots j
      else j + 1

/-- `complete_segment_start` of a cutoff within the series. -/
def completeSegmentStart (series : Series) (cutoff : ℤ) (maxSlots : ℕ) :
    Except KernelError ℤ := do
  let i ← series.index cutoff
  if (series.values.getD i.toNat 0).value.isNone then
    .error (.unavailable .history "the fit cutoff itself was not observed")
  else
    let j := segmentFrom series.values i.toNat maxSlots i.toNat
    .ok (series.start + j * series.interval)

/-- A fraction as a percentage. -/
def percent (q : ℚ) : String := s!"{⌊q * 100 + 1 / 2⌋}%"

section Fit

variable {Digest : Type} (S : KernelSolvers) (sha256 : List UInt8 → Digest)

/-- The values from one time to another. -/
def between (series : Series) (lo hi : ℤ) :
    Except KernelError (List (Option ℚ)) := do
  let a ← series.index lo
  let b ← series.index hi
  .ok ((slice series.values a (b + 1)).map Double.value)

/-- `fit_e1`. -/
def fitE1 (series : Series) (cutoff : ℤ) (ks : KernelSettings) :
    Except KernelError (E1Fit Digest) :=
  let dt : ℤ := ks.intervalSeconds
  if series.interval ≠ dt ∨ cutoff % dt ≠ 0 ∨
      ¬(series.start ≤ cutoff ∧ cutoff ≤ series.stop) then
    .error (.unavailable .history "the cutoff is not on the series' grid")
  else if cutoff - series.start + dt < ks.minHistoryDays * day then
    .error (.unavailable .history
      s!"E1-product needs {ks.minHistoryDays} days of history")
  else do
    let wLo := cutoff - ks.arWindowDays * day + dt
    let window ← between series wLo cutoff
    if window ≠ [] ∧ (window.filter Option.isSome).length / window.length <
        ks.minObservedFraction then
      .error (.unavailable .history
        (s!"under {percent ks.minObservedFraction} of the fit window " ++
          "was observed"))
    else
      let segLo ← completeSegmentStart series cutoff (ks.hwMaxDays * ks.m)
      if (cutoff - segLo) / dt + 1 < ks.hwMinDays * ks.m then
        .error (.unavailable .history
          (s!"Holt-Winters needs a complete {ks.hwMinDays}-day segment " ++
            "ending at the cutoff"))
      else
        let segment ← between series segLo cutoff
        let hw ← fitHw S segment ks.m segLo ks.hwMaxiter
        let (coef, rows) ← fitAr series ks S cutoff
        let lo := max series.start
          (min segLo (wLo - ks.profileDays * day - ks.arOrder * dt))
        let digest ← series.digest sha256 lo cutoff
        .ok ⟨cutoff, dt, hw, coef, rows, lo, digest, ks.canonical⟩

end Fit

/-- The recursion of the residual over the steps. -/
def arRecursion (c : List ℚ) (p : ℕ) (hist : List ℚ) : ℕ → List ℚ
  | 0 => []
  | n + 1 =>
      let next := c.getD 0 0 + ((List.range p).map fun j =>
        c.getD (j + 1) 0 * hist.getD j 0).sum
      next :: arRecursion c p (next :: hist.dropLast) n

/-- The profile of a target and the recursion at its step. -/
def profileArAt (series : Series) (ks : KernelSettings) (ar : List ℚ)
    (target : ℤ × ℕ) : Except KernelError ℚ :=
  match profile series ks target.1 with
  | some p => .ok (p + ar.getD (target.2 - 1) 0)
  | none =>
      .error (.unavailable .history
        s!"the profile of target {target.1} lacks support")

/-- `forecast_e1`. -/
def forecastE1 {Digest : Type} (fit : E1Fit Digest) (series : Series)
    (inputEnd : ℤ) (targets : List ℤ) (ks : KernelSettings) :
    Except KernelError E1Forecast :=
  let dt : ℤ := ks.intervalSeconds
  if fit.intervalSeconds ≠ dt ∨ inputEnd < fit.cutoff ∨
      (inputEnd - fit.cutoff) % dt ≠ 0 then
    .error (.unavailable .history
      "the fit does not precede the input end on this grid")
  else if targets.any fun s => s ≤ inputEnd ∨ (s - inputEnd) % dt ≠ 0 then
    .error (.unavailable .history
      "targets must lie on the grid after the input end")
  else if targets.any fun s => (ks.seasonSeconds : ℤ) < s - inputEnd then
    .error (.unavailable .history
      "targets must lie within one season of the input end")
  else
    match (timeRange (fit.cutoff + dt) (inputEnd + 1) dt).mapM series.at?,
      series.at? inputEnd with
    | some since, some _ =>
        let h := fit.hw
        let (_, level, trend, season) :=
          hwRun since h.alpha h.beta h.gamma h.level h.trend h.season
        let steps := targets.map fun s => ((s - inputEnd) / dt).toNat
        let hw := steps.map fun k : ℕ =>
          level + k * trend + season.getD ((k - 1) % ks.m) 0
        match (List.range ks.arOrder).mapM fun k : ℕ =>
            residual series ks (inputEnd - k * dt), steps.max? with
        | none, _ =>
            .error (.unavailable .history "the recent AR lags are incomplete")
        | some _, none =>
            .error (.raised "max() iterable argument is empty")
        | some hist, some last => do
            let ar := arRecursion fit.arCoef ks.arOrder hist last
            let pa ← (targets.zip steps).mapM (profileArAt series ks ar)
            .ok ⟨hw, pa, List.zipWith (fun a b => max 0
              (ks.hwWeight * a + (1 - ks.hwWeight) * b)) hw pa⟩
    | _, _ =>
        .error (.unavailable .history
          "observations between the fit cutoff and the input end are missing")

/-- The value one season before a target, observed no later than the input
end. -/
def naiveAt (series : Series) (inputEnd : ℤ) (ks : KernelSettings) (s : ℤ) :
    Except KernelError ℚ :=
  let lag := s - ks.seasonSeconds
  let missing := KernelError.unavailable .history
    s!"seasonal-naive lag {lag} for target {s} is not available"
  match series.at? lag with
  | none => .error missing
  | some v => if inputEnd < lag then .error missing else .ok v

/-- `seasonal_naive`. -/
def seasonalNaive (series : Series) (inputEnd : ℤ) (targets : List ℤ)
    (ks : KernelSettings) : Except KernelError (List ℚ) :=
  targets.mapM (naiveAt series inputEnd ks)

end PredictiveAutoscaler.Forecasting.Statistical
