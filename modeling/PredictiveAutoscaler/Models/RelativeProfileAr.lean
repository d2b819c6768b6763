/-
The relative-residual forecaster: an AR(3) of the residual relative to the
seven-day profile, clipped where it is trained and unclipped where it seeds
the forecast.
-/
import PredictiveAutoscaler.Models.SeasonalEnsemble

namespace PredictiveAutoscaler.Models.RelativeProfileAr

open SeasonalEnsemble

/-- Training residuals are clipped to half of the profile. -/
def relClip : ℚ := 1 / 2

def version : String := "relative-profile-ar-1.0.0"

/-- The solver: least squares, which may fail. -/
abbrev Lstsq := List (List ℚ) → List ℚ → Except String (List (Option ℚ))

structure Generation (Digest : Type) where
  boundaryTs : ℤ
  arCoef : List ℚ
  arRows : ℕ
  fingerprint : Digest
  windowStartTs : ℤ

section Generations

variable {Digest : Type} (lstsq : Lstsq) (sha256 : List UInt8 → Digest)
  (g : Grid)

/-- `relative_residuals` at one index. -/
def relativeResidual (t : ℕ) : Option ℚ :=
  match profileAt g t, g.filled t with
  | some p, some v => if 0 < p then some (v / p - 1) else none
  | _, _ => none

def windowLo (b : ℕ) : ℕ := b + 1 - arWindowSlots

/-- The residuals of a fit: clipped within its window. -/
def clippedResidual (q : ℕ → Option ℚ) (b t : ℕ) : Option ℚ :=
  if windowLo b ≤ t then (q t).map fun x => clip x (-relClip) relClip else q t

/-- The rows of the seven days up to the boundary. -/
def trainingRows (q : ℕ → Option ℚ) (b : ℕ) : List (List ℚ × ℚ) :=
  let first := max arOrder (windowLo b + arOrder)
  (List.range' first (b + 1 - first)).filterMap (arRow (clippedResidual q b))

/-- `fit_generation`. -/
def fitGeneration (q : ℕ → Option ℚ) (b : ℕ) : Except String (List ℚ × ℕ) :=
  let rows := trainingRows q b
  if rows.length < minArRows then
    .error s!"AR fit needs {minArRows} complete rows, got {rows.length}"
  else
    match lstsq (rows.map Prod.fst) (rows.map Prod.snd) with
    | .error e => .error e
    | .ok coef =>
        match coef.mapM id with
        | some coef => .ok (coef, rows.length)
        | none => .error "AR coefficients not finite"

def fingerprintLo (b : ℕ) : ℕ := windowLo b - profileDays * season

/-- The text and the bytes that are hashed. -/
def fingerprinted (boundaryTs : ℤ) (b : ℕ) : List UInt8 :=
  ascii (version.toList ++ '|' :: decimal boundaryTs ++
    '|' :: decimal (g.ts (fingerprintLo b))) ++
    (List.range' (fingerprintLo b) (b + 1 - fingerprintLo b)).flatMap fun i =>
      (g.y i).bytes

/-- `generation_for` without its cache. -/
def generationFor (boundaryTs : ℤ) : Except String (Generation Digest) :=
  let b := g.index boundaryTs
  if b < 0 ∨ g.size ≤ b then
    .error "boundary outside the observed series"
  else
    match fitGeneration lstsq (relativeResidual g) b.toNat with
    | .error e => .error e
    | .ok (coef, rows) =>
        .ok ⟨boundaryTs, coef, rows,
          sha256 (fingerprinted g boundaryTs b.toNat),
          g.ts (windowLo b.toNat)⟩

structure Raw (Digest : Type) where
  raw : List (Option ℚ)
  generation : Generation Digest
  staleGeneration : Bool

/-- A residual that seeds the recursion. -/
def seedAt (t : ℤ) : Option ℚ :=
  if 0 ≤ t then relativeResidual g t.toNat else none

/-- A step of the forecast, when its target has a profile; a NaN of the
recursion makes it 0, as `max` keeps its first argument. -/
def rawStep (p next : Option ℚ) : Option ℚ :=
  match p, next with
  | some p, some q => some (max 0 (p * (1 + q)))
  | some _, none => some 0
  | none, _ => none

/-- `raw_at`. -/
def rawAt (origin : ℕ) : Except Unavailable (Raw Digest) :=
  match usable (generationFor lstsq sha256 g) (boundaryOf (g.ts origin)) with
  | .error e => .error e
  | .ok (gen, stale) =>
      match seedAt g origin, seedAt g (origin - 1), seedAt g (origin - 2) with
      | some a, some b, some c =>
          .ok ⟨List.zipWith rawStep (targetProfiles g origin)
            (arForecast gen.arCoef [some a, some b, some c] steps), gen, stale⟩
      | _, _, _ => .error .missingResidual

/-- `_raw_fn`. -/
def rawFn : RawFn := fun g j => (rawAt lstsq sha256 g j).map Raw.raw

end Generations

end PredictiveAutoscaler.Models.RelativeProfileAr
