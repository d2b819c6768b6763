/-
The artifact store: files named by their digest and one pointer per binding,
each written to a temporary file, synced, renamed and followed by a sync of
the directory.  Whatever fails or crashes on the way, a pointer names a whole
artifact of its binding, and no promotion sets it back.
-/
import Mathlib.Algebra.Order.Ring.Rat
import Mathlib.Order.WithBot
import PredictiveAutoscaler.CrashDisk
import PredictiveAutoscaler.Forecasting.ArtifactFile

namespace PredictiveAutoscaler.Forecasting.Artifacts

abbrev Folder := Directory String Bytes

abbrev StoreProgram (α : Type) :=
  Durable (Machine String Bytes) ArtifactError α

def zipName (sha : String) : String := sha ++ ".zip"

def tmpName (name : String) : String := "." ++ name ++ ".tmp"

def osError (op : FileOp) : ArtifactError := .exception (.osError op)

/-- `_write_atomic`. -/
def writeAtomic (name : String) (data : Bytes) : StoreProgram Unit := do
  act (osError .write) (fun d => d.write (tmpName name) data) fun left d =>
    match left with
    | none => d
    | some part => d.write (tmpName name) part
  act (osError .sync) (fun d => d.sync (tmpName name)) fun _ d => d
  act (osError .rename) (fun d => d.rename (tmpName name) name) fun _ d => d
  act (osError .syncDirectory) (fun d => d.syncEntries) fun _ d => d

section Store

variable (L : Libraries)

def pointerName (b : Binding) : String := L.key b ++ ".json"

/-- `except (OSError, ValueError, KeyError)` of `current`. -/
def unreadable : PyException → ArtifactError
  | .osError _ =>
      .refused .malformed "unreadable pointer or artifact: OSError"
  | .valueError text =>
      .refused .malformed s!"unreadable pointer or artifact: {text}"
  | .keyError key =>
      .refused .malformed s!"unreadable pointer or artifact: '{key}'"
  | e => .exception e

/-- A pointer and the digest it names. -/
def pointerTarget (text : Bytes) : Except ArtifactError (Value × Value) :=
  match L.loads text with
  | .error e => .error (unreadable e)
  | .ok ptr =>
      match index ptr "sha256" with
      | .error e => .error (unreadable e)
      | .ok sha => .ok (ptr, sha)

/-- The bytes that were read, checked against the pointer. -/
def checkedArtifact (ptr sha : Value) (content : Bytes) :
    Except ArtifactError (String × Value × Bytes) :=
  let data := content.take (maxArtifactBytes + 1)
  if (Value.str (L.sha256Hex data)).eq sha then
    (raised (index ptr "fit_cutoff")).map fun cutoff =>
      (L.sha256Hex data, cutoff, data)
  else
    .error (.refused .digest
      "the promoted artifact does not match its pointer")

/-- `current`: the digest, the cutoff and the bytes of the promoted artifact. -/
def current (b : Binding) :
    StoreProgram (Option (String × Value × Bytes)) := do
  let pointer ← readFile (unreadable (.osError .read)) (pointerName L b)
  match pointer with
  | none => pure none
  | some text =>
      let (ptr, sha) ← Durable.liftExcept (pointerTarget L text)
      let artifact ← readFile (unreadable (.osError .read))
        (zipName (L.format sha))
      match artifact with
      | none => pure none
      | some content =>
          let found ← Durable.liftExcept (checkedArtifact L ptr sha content)
          pure (some found)

/-- The current artifact when its cutoff is not older than `cutoff`. -/
def notNewer (cutoff : Value) (cur : Option (String × Value × Bytes)) :
    Except ArtifactError (Option String) :=
  match cur with
  | none => .ok none
  | some (sha, cutoff', _) =>
      match cutoff.le? cutoff' with
      | none =>
          .error (.exception (.typeError "'<=' not supported between instances"))
      | some true => .ok (some sha)
      | some false => .ok none

def farEnd : ℤ := 2 ^ 62

/-- `promote`: the digest and whether it was promoted. -/
def promote (b : Binding) (data : Bytes) (ks : KernelSettings) :
    StoreProgram (String × Bool) := do
  let sha := L.sha256Hex data
  let fit ← Durable.liftExcept (decode L data sha b ks farEnd farEnd)
  let cur ← current L b
  let newer ← Durable.liftExcept (notNewer fit.cutoff cur)
  match newer with
  | some kept => pure (kept, false)
  | none =>
      writeAtomic (zipName sha) data
      let text ← Durable.liftExcept
        (raised (L.canonicalJson (pointerDoc sha fit.cutoff)))
      writeAtomic (pointerName L b) text
      pure (sha, true)

/-- `load_snapshot`. -/
def loadSnapshot (b : Binding) (ks : KernelSettings) (inputEnd : ℤ) :
    StoreProgram (Option (String × E1Fit)) := do
  let cur ← current L b
  match cur with
  | none => pure none
  | some (sha, _, data) =>
      let fit ← Durable.liftExcept (decode L data sha b ks inputEnd maxFitAgeSeconds)
      pure (some (sha, fit))

end Store

/-- The names that are renamed to. -/
def Final (name : String) : Prop :=
  ∃ stem, name = stem ++ ".zip" ∨ name = stem ++ ".json"

theorem suffix_inj {s t a b : String}
    (hlength : a.toList.length = b.toList.length) (h : s ++ a = t ++ b) :
    s = t ∧ a = b := by
  have hlist := congrArg String.toList h
  rw [String.toList_append, String.toList_append] at hlist
  obtain ⟨hs, ha⟩ := List.append_inj' hlist hlength
  exact ⟨String.toList_injective hs, String.toList_injective ha⟩

theorem zipName_injective : Function.Injective zipName :=
  fun _ _ h => (suffix_inj rfl h).1

theorem final_zipName (sha : String) : Final (zipName sha) :=
  ⟨sha, .inl rfl⟩

theorem final_pointerName (L : Libraries) (b : Binding) :
    Final (pointerName L b) :=
  ⟨L.key b, .inr rfl⟩

/-- The last character of a name tells a pointer from everything else. -/
theorem getLast?_append_of_suffix (s : String) {suffix : String} {c : Char}
    (h : suffix.toList.getLast? = some c) :
    (s ++ suffix).toList.getLast? = some c := by
  rw [String.toList_append, List.getLast?_append, h]
  rfl

theorem pointerName_ne_zipName (L : Libraries) (b : Binding) (sha : String) :
    pointerName L b ≠ zipName sha := by
  intro h
  have hn : (pointerName L b).toList.getLast? = some 'n' :=
    getLast?_append_of_suffix _ (by decide)
  have hp : (zipName sha).toList.getLast? = some 'p' :=
    getLast?_append_of_suffix _ (by decide)
  rw [h, hp] at hn
  exact absurd (Option.some.inj hn) (by decide)

theorem pointerName_injective (L : Libraries) :
    Function.Injective (pointerName L) := fun _ _ h =>
  L.bindingText_injective (L.sha256_injective (suffix_inj rfl h).1)

theorem Final.ne_tmpName {name other : String} (h : Final name) :
    name ≠ tmpName other := by
  rintro rfl
  obtain ⟨stem, hzip | hjson⟩ := h
  · have hsuffix := (suffix_inj (s := "." ++ other) (t := stem)
      (a := ".tmp") (b := ".zip") rfl hzip).2
    exact absurd hsuffix (by decide)
  · have hp : (tmpName other).toList.getLast? = some 'p' :=
      getLast?_append_of_suffix _ (by decide)
    have hn : (stem ++ ".json").toList.getLast? = some 'n' :=
      getLast?_append_of_suffix _ (by decide)
    rw [hjson, hn] at hp
    exact absurd (Option.some.inj hp) (by decide)

/-- Two folders with the same entries under every name that is renamed to. -/
def SameFinals (d d' : Folder) : Prop :=
  ∀ name, Final name → d'.entries name = d.entries name

theorem SameFinals.refl (d : Folder) : SameFinals d d := fun _ _ => rfl

theorem SameFinals.trans {d₁ d₂ d₃ : Folder} (h : SameFinals d₁ d₂)
    (h' : SameFinals d₂ d₃) : SameFinals d₁ d₃ := fun name hname =>
  (h' name hname).trans (h name hname)

theorem SameFinals.symm {d d' : Folder} (h : SameFinals d d') :
    SameFinals d' d := fun name hname => (h name hname).symm

theorem SameFinals.files {d d' : Folder} (h : SameFinals d d') {name : String}
    (hname : Final name) : d'.files name = d.files name :=
  (List.cons.inj (h name hname)).1

theorem sameFinals_write (d : Folder) (name : String) (data : Bytes) :
    SameFinals d (d.write (tmpName name) data) := fun _ hfinal =>
  d.entries_put_of_ne _ hfinal.ne_tmpName

theorem sameFinals_sync (d : Folder) (name : String) :
    SameFinals d (d.sync (tmpName name)) := fun _ hfinal =>
  d.entries_sync_of_ne hfinal.ne_tmpName

theorem SameFinals.syncEntries {d d' : Folder} (h : SameFinals d d') :
    SameFinals d.syncEntries d'.syncEntries := by
  intro name hfinal
  rw [Directory.entries_syncEntries, Directory.entries_syncEntries,
    h.files hfinal]

/-- What each step of `_write_atomic` does to the names that are renamed to:
nothing until the rename, which puts the whole synced file in place. -/
theorem writeAtomic_guarded {R : Folder → Folder → Prop}
    {E : ArtifactError → Folder → Prop} {Q : Unit → Folder → Prop}
    {d : Folder} {name : String} {data : Bytes} (hfinal : Final name)
    (hsame : ∀ d₁ d₂, SameFinals d₁ d₂ → R d₁ d₂)
    (hplace : ∀ d₁ d₂, SameFinals d d₁ →
      SameFinals (d.put name (some ⟨data, true⟩)) d₂ → R d₁ d₂)
    (hsettle : ∀ d₁ : Folder, R d₁ d₁.syncEntries)
    (hfail : ∀ op d', SameFinals d d' → E (osError op) d')
    (hunsynced : ∀ d', SameFinals (d.put name (some ⟨data, true⟩)) d' →
      E (osError .syncDirectory) d')
    (hdone : ∀ d', SameFinals (d.put name (some ⟨data, true⟩)).syncEntries d' →
      (∀ n, d'.earlier n = []) → Q () d') :
    Guarded R E (writeAtomic name data) Q d := by
  have hwritten := sameFinals_write d name data
  have hsynced := hwritten.trans
    (sameFinals_sync (d.write (tmpName name) data) name)
  have hrenamed : SameFinals (d.put name (some ⟨data, true⟩))
      (((d.write (tmpName name) data).sync (tmpName name)).rename
        (tmpName name) name) := fun n hn =>
    d.entries_rename_written data hn.ne_tmpName hfinal.ne_tmpName
  refine guarded_bind (guarded_act (hsame _ _ hwritten) ?_ ?_ ?_)
  · refine guarded_bind (guarded_act
      (hsame _ _ (sameFinals_sync _ name)) ?_
      (fun _ => hsame _ _ (.refl _)) fun _ => hfail _ _ hwritten)
    refine guarded_bind (guarded_act (hplace _ _ hsynced hrenamed) ?_
      (fun _ => hsame _ _ (.refl _)) fun _ => hfail _ _ hsynced)
    exact guarded_act (hsettle _) (hdone _ hrenamed.syncEntries fun _ => rfl)
      (fun _ => hsame _ _ (.refl _)) fun _ => hunsynced _ hrenamed
  · intro left
    cases left with
    | none => exact hsame _ _ (.refl _)
    | some part => exact hsame _ _ (sameFinals_write d name part)
  · intro left
    cases left with
    | none => exact hfail _ _ (.refl _)
    | some part => exact hfail _ _ (sameFinals_write d name part)

section Kept

variable (L : Libraries)

/-- The cutoff that a pointer file names; an absent one is below all others. -/
def cutoffOf : Option (File Bytes) → WithBot ℚ
  | none => ⊥
  | some file =>
      match L.loads file.content with
      | .error _ => ⊥
      | .ok ptr =>
          match index ptr "fit_cutoff" with
          | .error _ => ⊥
          | .ok cutoff =>
              match cutoff.number? with
              | some (.finite q) => (q : WithBot ℚ)
              | _ => ⊥

def cutoffAt (d : Folder) (b : Binding) : WithBot ℚ :=
  cutoffOf L (d.files (pointerName L b))

/-- The oldest entry that a crash may bring back. -/
def oldest (d : Folder) (name : String) : Option (File Bytes) :=
  (d.earlier name).getLastD (d.files name)

/-- The cutoff below which no crash takes a pointer. -/
def floorAt (d : Folder) (b : Binding) : WithBot ℚ :=
  cutoffOf L (oldest d (pointerName L b))

/-- A pointer's text names an artifact that is there whatever happens, has the
digest and decodes for the binding. -/
structure Names (d : Folder) (b : Binding) (text : Bytes) (sha : String)
    (data : Bytes) (fit : E1Fit) (q : ℚ) : Prop where
  written : L.canonicalJson (pointerDoc sha fit.cutoff) = .ok text
  finite : fit.cutoff.number? = some (.finite q)
  digest : L.sha256Hex data = sha
  whole : ∀ f ∈ d.entries (zipName sha), f = some ⟨data, true⟩
  decodes : ∃ ks, decode L data sha b ks farEnd farEnd = .ok fit

/-- What every folder keeps that the store wrote, of the entries that are seen
and of those that a crash may bring back. -/
structure Kept (d : Folder) : Prop where
  artifacts : ∀ sha, ∀ f ∈ d.entries (zipName sha), f = none ∨
    ∃ data, f = some ⟨data, true⟩ ∧ L.sha256Hex data = sha
  pointers : ∀ b, ∀ f ∈ d.entries (pointerName L b), f = none ∨
    ∃ text sha data fit q, f = some ⟨text, true⟩ ∧
      Names L d b text sha data fit q
  ordered : ∀ b, (d.entries (pointerName L b)).Pairwise
    fun newer older => cutoffOf L older ≤ cutoffOf L newer

/-- A step that keeps all that and takes no cutoff back. -/
structure Advance (d d' : Folder) : Prop where
  kept : Kept L d'
  cutoffs : ∀ b, cutoffAt L d b ≤ cutoffAt L d' b
  floors : ∀ b, floorAt L d b ≤ floorAt L d' b

variable {L} {d d' : Folder} {b : Binding}

theorem Names.loads {text data : Bytes} {sha : String} {fit : E1Fit} {q : ℚ}
    (h : Names L d b text sha data fit q) :
    ∃ ptr, L.loads text = .ok ptr ∧ index ptr "sha256" = .ok (.str sha) ∧
      index ptr "fit_cutoff" = .ok fit.cutoff := by
  obtain ⟨members, hloads, hsha, hcutoff⟩ := L.loads_pointer h.written
  refine ⟨.dict members, hloads, ?_, ?_⟩
  · unfold index
    dsimp only
    rw [hsha]
  · unfold index
    dsimp only
    rw [hcutoff]

theorem Names.cutoffOf {text data : Bytes} {sha : String} {fit : E1Fit} {q : ℚ}
    (h : Names L d b text sha data fit q) (synced : Bool) :
    Artifacts.cutoffOf L (some ⟨text, synced⟩) = (q : WithBot ℚ) := by
  obtain ⟨ptr, hloads, -, hcutoff⟩ := h.loads
  unfold Artifacts.cutoffOf
  simp only [hloads, hcutoff, h.finite]

/-- Artifact files only come to be, each with the content of its digest. -/
def ArtifactsGrow (L : Libraries) (d d' : Folder) : Prop :=
  ∀ sha, ∀ f ∈ d'.entries (zipName sha), f ∈ d.entries (zipName sha) ∨
    ∃ data, f = some ⟨data, true⟩ ∧ L.sha256Hex data = sha

theorem Names.grow {text data : Bytes} {sha : String} {fit : E1Fit} {q : ℚ}
    (h : Names L d b text sha data fit q) (hgrow : ArtifactsGrow L d d') :
    Names L d' b text sha data fit q where
  written := h.written
  finite := h.finite
  digest := h.digest
  whole := by
    intro f hf
    rcases hgrow sha f hf with hold | ⟨data', rfl, hsha⟩
    · exact h.whole f hold
    · rw [L.sha256_injective (hsha.trans h.digest.symm)]
  decodes := h.decodes

theorem Kept.artifacts_grow (h : Kept L d) (hgrow : ArtifactsGrow L d d')
    (sha : String) : ∀ f ∈ d'.entries (zipName sha), f = none ∨
      ∃ data, f = some ⟨data, true⟩ ∧ L.sha256Hex data = sha := by
  intro f hf
  rcases hgrow sha f hf with hold | hnew
  · exact h.artifacts sha f hold
  · exact .inr hnew

/-- Nothing is lost when pointers only lose entries. -/
theorem Kept.of_sublist (h : Kept L d) (hgrow : ArtifactsGrow L d d')
    (hpointers : ∀ b, (d'.entries (pointerName L b)).Sublist
      (d.entries (pointerName L b))) : Kept L d' where
  artifacts := h.artifacts_grow hgrow
  pointers := by
    intro b f hf
    rcases h.pointers b f ((hpointers b).subset hf) with
      hnone | ⟨text, sha, data, fit, q, hfile, hnames⟩
    · exact .inl hnone
    · exact .inr ⟨text, sha, data, fit, q, hfile, hnames.grow hgrow⟩
  ordered := fun b => (h.ordered b).sublist (hpointers b)

theorem mem_entries_files (d : Folder) (name : String) :
    d.files name ∈ d.entries name := List.mem_cons_self

theorem oldest_mem_entries (d : Folder) (name : String) :
    oldest d name ∈ d.entries name := by
  unfold oldest Directory.entries
  rw [List.getLastD_eq_getLast?]
  cases hlast : (d.earlier name).getLast? with
  | none => exact List.mem_cons_self
  | some f => exact List.mem_cons_of_mem _ (List.mem_of_getLast? hlast)

/-- No possible entry is below the floor. -/
theorem Kept.floorAt_le (h : Kept L d) {f : Option (File Bytes)}
    (hf : f ∈ d.entries (pointerName L b)) :
    floorAt L d b ≤ cutoffOf L f := by
  have hordered := h.ordered b
  unfold floorAt oldest
  unfold Directory.entries at hordered hf
  generalize d.files (pointerName L b) = first at hordered hf ⊢
  generalize d.earlier (pointerName L b) = rest at hordered hf ⊢
  induction rest generalizing first f with
  | nil =>
      rw [List.mem_singleton.mp hf]
      exact le_rfl
  | cons second rest ih =>
      rw [List.pairwise_cons] at hordered
      rw [List.getLastD_cons]
      rcases List.mem_cons.mp hf with rfl | hrest
      · exact (ih second hordered.2 List.mem_cons_self).trans
          (hordered.1 second List.mem_cons_self)
      · exact ih second hordered.2 hrest

/-- The entry that is seen is the newest. -/
theorem Kept.le_cutoffAt (h : Kept L d) {f : Option (File Bytes)}
    (hf : f ∈ d.entries (pointerName L b)) :
    cutoffOf L f ≤ cutoffAt L d b := by
  have hordered := h.ordered b
  unfold Directory.entries at hordered hf
  rw [List.pairwise_cons] at hordered
  rcases List.mem_cons.mp hf with rfl | hrest
  · exact le_rfl
  · exact hordered.1 f hrest

theorem Advance.of_same (h : Kept L d) (hsame : SameFinals d d') :
    Advance L d d' := by
  have hpointer := fun b => hsame _ (final_pointerName L b)
  refine ⟨h.of_sublist (fun sha f hf => .inl ?_) fun b => ?_,
    fun b => ?_, fun b => ?_⟩
  · rw [hsame _ (final_zipName sha)] at hf
    exact hf
  · rw [hpointer b]
  · unfold cutoffAt
    rw [hsame.files (final_pointerName L b)]
  · obtain ⟨hfiles, hearlier⟩ := List.cons.inj (hpointer b)
    unfold floorAt oldest
    rw [hfiles, hearlier]

theorem Advance.trans {d'' : Folder} (h : Advance L d d')
    (h' : Advance L d' d'') : Advance L d d'' where
  kept := h'.kept
  cutoffs := fun b => (h.cutoffs b).trans (h'.cutoffs b)
  floors := fun b => (h.floors b).trans (h'.floors b)

/-- A step is judged by the names that are renamed to. -/
theorem Advance.between {e e' : Folder} (h : Kept L e) (hsame : SameFinals d e)
    (hstep : Kept L d → Advance L d d') (hsame' : SameFinals d' e') :
    Advance L e e' := by
  have hback := Advance.of_same h hsame.symm
  have hmove := hstep hback.kept
  exact (hback.trans hmove).trans (.of_same hmove.kept hsame')

theorem Advance.settle (h : Kept L d) : Advance L d d.syncEntries where
  kept := by
    refine h.of_sublist (fun sha f hf => .inl ?_) fun b => ?_
    · rw [List.mem_singleton.mp hf]
      exact mem_entries_files d _
    · exact List.singleton_sublist.mpr (mem_entries_files d _)
  cutoffs := fun _ => le_rfl
  floors := fun b => h.floorAt_le (mem_entries_files d _)

/-- An artifact is put in place. -/
theorem Advance.place_artifact {data : Bytes} (h : Kept L d) :
    Advance L d
      (d.put (zipName (L.sha256Hex data)) (some ⟨data, true⟩)) := by
  have hpointer : ∀ b, (d.put (zipName (L.sha256Hex data))
      (some ⟨data, true⟩)).entries (pointerName L b) =
        d.entries (pointerName L b) := fun b =>
    d.entries_put_of_ne _ (pointerName_ne_zipName L b _)
  refine ⟨h.of_sublist (fun sha f hf => ?_) fun b => ?_,
    fun b => ?_, fun b => ?_⟩
  · by_cases hsha : sha = L.sha256Hex data
    · subst hsha
      rw [Directory.entries_put_self] at hf
      rcases List.mem_cons.mp hf with rfl | hold
      · exact .inr ⟨data, rfl, rfl⟩
      · exact .inl hold
    · rw [Directory.entries_put_of_ne _ _
        fun heq => hsha (zipName_injective heq)] at hf
      exact .inl hf
  · rw [hpointer b]
  · unfold cutoffAt
    rw [(List.cons.inj (hpointer b)).1]
  · obtain ⟨hfiles, hearlier⟩ := List.cons.inj (hpointer b)
    unfold floorAt oldest
    rw [hfiles, hearlier]

/-- A newer pointer to an artifact that is there is put in place. -/
theorem Advance.place_pointer {text data : Bytes} {sha : String} {fit : E1Fit}
    {q : ℚ} (h : Kept L d) (hnames : Names L d b text sha data fit q)
    (hnewer : cutoffAt L d b < (q : WithBot ℚ)) :
    Advance L d (d.put (pointerName L b) (some ⟨text, true⟩)) := by
  have hother : ∀ {name} (f : Option (File Bytes)), name ≠ pointerName L b →
      (d.put (pointerName L b) f).entries name = d.entries name :=
    fun f hname => d.entries_put_of_ne f hname
  have hgrow : ArtifactsGrow L d
      (d.put (pointerName L b) (some ⟨text, true⟩)) := by
    intro sha f hf
    rw [hother _ (pointerName_ne_zipName L b sha).symm] at hf
    exact .inl hf
  refine ⟨⟨h.artifacts_grow hgrow, fun b' f hf => ?_, fun b' => ?_⟩,
    fun b' => ?_, fun b' => ?_⟩
  · by_cases hb : b' = b
    · subst hb
      rw [Directory.entries_put_self] at hf
      rcases List.mem_cons.mp hf with rfl | hold
      · exact .inr ⟨text, sha, data, fit, q, rfl, hnames.grow hgrow⟩
      · rcases h.pointers b' f hold with
          hnone | ⟨text', sha', data', fit', q', hfile, hnames'⟩
        · exact .inl hnone
        · exact .inr ⟨text', sha', data', fit', q', hfile,
            hnames'.grow hgrow⟩
    · rw [hother _ fun heq => hb (pointerName_injective L heq)] at hf
      rcases h.pointers b' f hf with
        hnone | ⟨text', sha', data', fit', q', hfile, hnames'⟩
      · exact .inl hnone
      · exact .inr ⟨text', sha', data', fit', q', hfile, hnames'.grow hgrow⟩
  · by_cases hb : b' = b
    · subst hb
      rw [Directory.entries_put_self]
      refine List.pairwise_cons.mpr ⟨fun f hf => ?_, h.ordered b'⟩
      rw [hnames.cutoffOf]
      exact (h.le_cutoffAt hf).trans hnewer.le
    · rw [hother _ fun heq => hb (pointerName_injective L heq)]
      exact h.ordered b'
  · unfold cutoffAt at hnewer ⊢
    rw [Directory.files_put]
    split
    · rename_i heq
      rw [hnames.cutoffOf, pointerName_injective L heq]
      exact hnewer.le
    · exact le_rfl
  · by_cases hb : b' = b
    · subst hb
      unfold floorAt oldest
      rw [Directory.earlier_put, if_pos rfl, Directory.entries,
        List.getLastD_cons]
    · obtain ⟨hfiles, hearlier⟩ := List.cons.inj
        (hother (some ⟨text, true⟩)
          fun heq => hb (pointerName_injective L heq))
      unfold floorAt oldest
      rw [hfiles, hearlier]

end Kept

section Promotions

variable {L : Libraries} {d d' : Folder} {b : Binding} {data : Bytes}
  {ks : KernelSettings}

/-- What `current` finds in a folder that is kept. -/
inductive CurrentIs (L : Libraries) (d : Folder) (b : Binding) :
    Option (String × Value × Bytes) → Prop
  | absent (hfile : d.files (pointerName L b) = none) : CurrentIs L d b none
  | promoted {text sha data fit q}
      (hfile : d.files (pointerName L b) = some ⟨text, true⟩)
      (hnames : Names L d b text sha data fit q) :
      CurrentIs L d b (some (sha, fit.cutoff, data))

theorem Names.pointerTarget {text : Bytes} {sha : String} {fit : E1Fit} {q : ℚ}
    (h : Names L d b text sha data fit q) :
    ∃ ptr, pointerTarget L text = .ok (ptr, .str sha) ∧
      checkedArtifact L ptr (.str sha) data =
        .ok (sha, fit.cutoff, data) := by
  obtain ⟨ptr, hloads, hsha, hcutoff⟩ := h.loads
  obtain ⟨ks, hdecode⟩ := h.decodes
  obtain ⟨hlength, hdigest, -⟩ := decode_eq_ok L hdecode
  refine ⟨ptr, ?_, ?_⟩
  · unfold Artifacts.pointerTarget
    simp only [hloads, hsha]
  · have htake : data.take (maxArtifactBytes + 1) = data :=
      List.take_of_length_le (Nat.le_succ_of_le hlength)
    unfold checkedArtifact
    simp only [htake, hdigest, Value.eq, decide_true, if_true, hcutoff]
    rfl

theorem Names.read {text : Bytes} {sha : String} {fit : E1Fit} {q : ℚ}
    (h : Names L d b text sha data fit q) :
    d.read (zipName sha) = some data := by
  unfold Directory.read
  rw [h.whole _ (mem_entries_files d _)]
  rfl

variable {R : Folder → Folder → Prop}

theorem current_guarded (h : Kept L d) (hstay : R d d) :
    Guarded R (fun _ d' => d' = d) (current L b)
      (fun cur d' => d' = d ∧ CurrentIs L d b cur) d := by
  refine guarded_bind (guarded_readFile hstay ?_ rfl)
  cases hfile : d.files (pointerName L b) with
  | none =>
      have hread : d.read (pointerName L b) = none := by
        unfold Directory.read
        rw [hfile]
        rfl
      rw [hread]
      exact guarded_pure ⟨rfl, .absent hfile⟩
  | some file =>
      rcases h.pointers b _ (mem_entries_files d _) with
        hnone | ⟨text, sha, data, fit, q, hsome, hnames⟩
      · rw [hfile] at hnone
        cases hnone
      have hread : d.read (pointerName L b) = some text := by
        unfold Directory.read
        rw [hsome]
        rfl
      obtain ⟨ptr, htarget, hchecked⟩ := hnames.pointerTarget
      rw [hread]
      dsimp only
      rw [htarget]
      refine guarded_bind (guarded_ok ?_)
      refine guarded_bind (guarded_readFile hstay ?_ rfl)
      rw [L.format_str, hnames.read]
      dsimp only
      rw [hchecked]
      exact guarded_bind (guarded_ok
        (guarded_pure ⟨rfl, .promoted hsome hnames⟩))

/-- Every pointer is as it was. -/
def Unchanged (L : Libraries) (d d' : Folder) : Prop :=
  ∀ b, d'.files (pointerName L b) = d.files (pointerName L b)

/-- The pointer of one binding, and no other, names the artifact of `data`,
whose cutoff is newer than the one before. -/
structure Promoted (L : Libraries) (b : Binding) (data : Bytes)
    (ks : KernelSettings) (d d' : Folder) : Prop where
  named : ∃ text fit, d'.read (pointerName L b) = some text ∧
    L.canonicalJson (pointerDoc (L.sha256Hex data) fit.cutoff) = .ok text ∧
    decode L data (L.sha256Hex data) b ks farEnd farEnd = .ok fit
  newer : cutoffAt L d b < cutoffAt L d' b
  others : ∀ b', b' ≠ b →
    d'.files (pointerName L b') = d.files (pointerName L b')

theorem SameFinals.unchanged (h : SameFinals d d') : Unchanged L d d' :=
  fun b => h.files (final_pointerName L b)

/-- The comparison with the current cutoff decides as the numbers do. -/
theorem newer_of_notNewer {cutoff : Value} {q : ℚ}
    {cur : Option (String × Value × Bytes)} (hcur : CurrentIs L d b cur)
    (hfinite : cutoff.number? = some (.finite q))
    (h : notNewer cutoff cur = .ok none) : cutoffAt L d b < (q : WithBot ℚ) := by
  cases hcur with
  | absent hfile =>
      unfold cutoffAt
      rw [hfile]
      exact WithBot.bot_lt_coe q
  | promoted hfile hnames =>
      unfold cutoffAt
      rw [hfile, hnames.cutoffOf, WithBot.coe_lt_coe]
      unfold notNewer Value.le? at h
      simp only [hfinite, hnames.finite, PyFloat.le] at h
      split at h
      · cases h
      · cases h
      · rename_i hle
        exact not_le.mp (by simpa using hle)

/-- What an exception of a promotion leaves behind. -/
def LeftBehind (L : Libraries) (b : Binding) (data : Bytes)
    (ks : KernelSettings) (d : Folder) (e : ArtifactError) (d' : Folder) :
    Prop :=
  Unchanged L d d' ∨
    e = osError .syncDirectory ∧ Promoted L b data ks d d'

theorem Promoted.changed (h : Promoted L b data ks d d') :
    ¬Unchanged L d d' := by
  intro hunchanged
  refine absurd h.newer (not_lt.mpr (le_of_eq ?_))
  unfold cutoffAt
  rw [hunchanged b]

/-- A failed promotion leaves every pointer as it was, unless the directory
could not be synced after the pointer was renamed. -/
theorem LeftBehind.unchanged_iff {e : ArtifactError}
    (h : LeftBehind L b data ks d e d') :
    Unchanged L d d' ↔
      ¬(e = osError .syncDirectory ∧ Promoted L b data ks d d') :=
  ⟨fun hunchanged hafter => hafter.2.changed hunchanged,
    fun hnot => h.resolve_right hnot⟩

/-- What a promotion that returns has done: nothing, or its pointer is
replaced for good. -/
def Reported (L : Libraries) (b : Binding) (data : Bytes)
    (ks : KernelSettings) (d : Folder) (result : String × Bool)
    (d' : Folder) : Prop :=
  (result.2 = false ∧ Unchanged L d d') ∨
    result = (L.sha256Hex data, true) ∧ Promoted L b data ks d d' ∧
      ∀ n, d'.earlier n = []

/-- The pointer is renamed in one step, and no other pointer changes. -/
theorem promoted_of_placed {d₁ : Folder} {text : Bytes} {fit : E1Fit} {q : ℚ}
    (hunchanged : Unchanged L d d₁)
    (hnames : Names L d₁ b text (L.sha256Hex data) data fit q)
    (hdecode : decode L data (L.sha256Hex data) b ks farEnd farEnd = .ok fit)
    (hnewer : cutoffAt L d b < (q : WithBot ℚ))
    (hplaced : ∀ b', d'.files (pointerName L b') =
      (d₁.put (pointerName L b) (some ⟨text, true⟩)).files
        (pointerName L b')) : Promoted L b data ks d d' := by
  have hfile : d'.files (pointerName L b) = some ⟨text, true⟩ := by
    rw [hplaced b, Directory.files_put, if_pos rfl]
  refine ⟨⟨text, fit, ?_, hnames.written, hdecode⟩, ?_, fun b' hb' => ?_⟩
  · unfold Directory.read
    rw [hfile]
    rfl
  · have hnow : cutoffAt L d' b = (q : WithBot ℚ) := by
      unfold cutoffAt
      rw [hfile, hnames.cutoffOf]
    rw [hnow]
    exact hnewer
  · rw [hplaced b', Directory.files_put,
      if_neg fun heq => hb' (pointerName_injective L heq), hunchanged b']

/-- The second half of a promotion: the pointer to an artifact that is there. -/
theorem pointer_guarded {d₁ : Folder} {text : Bytes} {fit : E1Fit} {q : ℚ}
    (hunchanged : Unchanged L d d₁)
    (hnames : Names L d₁ b text (L.sha256Hex data) data fit q)
    (hdecode : decode L data (L.sha256Hex data) b ks farEnd farEnd = .ok fit)
    (hnewer : cutoffAt L d b < (q : WithBot ℚ)) :
    Guarded (fun d₁ d₂ => Kept L d₁ → Advance L d₁ d₂)
      (LeftBehind L b data ks d)
      (writeAtomic (pointerName L b) text >>= fun _ =>
        pure (L.sha256Hex data, true))
      (Reported L b data ks d) d₁ := by
  have hnewer₁ : cutoffAt L d₁ b < (q : WithBot ℚ) := by
    unfold cutoffAt at hnewer ⊢
    rw [hunchanged b]
    exact hnewer
  refine guarded_bind (writeAtomic_guarded (final_pointerName L b)
    (fun _ _ hsame hkept => .of_same hkept hsame)
    (fun _ _ h₁ h₂ hkept => .between hkept h₁
      (fun hkept => .place_pointer hkept hnames hnewer₁) h₂)
    (fun _ hkept => .settle hkept) (fun _ d' hd' => .inl fun b' => ?_)
    (fun d' hd' => .inr ⟨rfl, promoted_of_placed hunchanged hnames hdecode
      hnewer fun b' => hd'.files (final_pointerName L b')⟩)
    fun d' hd' hsettled => guarded_pure (.inr ⟨rfl, promoted_of_placed
      hunchanged hnames hdecode hnewer fun b' =>
        hd'.files (final_pointerName L b'), hsettled⟩))
  rw [hd'.files (final_pointerName L b'), hunchanged b']

/-- What a promotion does, whatever becomes of its steps: every step keeps the
store and takes no cutoff back; an exception leaves every pointer as it was,
except the one of a directory that could not be synced after the pointer was
renamed; a return tells whether the pointer changed. -/
theorem promote_guarded (h : Kept L d) :
    Guarded (fun d₁ d₂ => Kept L d₁ → Advance L d₁ d₂)
      (LeftBehind L b data ks d) (promote L b data ks)
      (Reported L b data ks d) d := by
  have hsame : ∀ d₁ d₂, SameFinals d₁ d₂ → Kept L d₁ → Advance L d₁ d₂ :=
    fun _ _ hsame hkept => .of_same hkept hsame
  refine guarded_bind ?_
  cases hdecode : decode L data (L.sha256Hex data) b ks farEnd farEnd with
  | error e => exact guarded_error (.inl fun _ => rfl)
  | ok fit =>
  refine guarded_ok (guarded_bind (guarded_mono
    (current_guarded h (hsame d d (.refl d))) ?_ ?_))
  · rintro _ _ rfl
    exact .inl fun _ => rfl
  intro cur d₀ hcurrent
  obtain ⟨hd₀, hcur⟩ := hcurrent
  rw [hd₀]
  refine guarded_bind ?_
  cases hnewer : notNewer fit.cutoff cur with
  | error e => exact guarded_error (.inl fun _ => rfl)
  | ok kept =>
  refine guarded_ok ?_
  cases kept with
  | some sha => exact guarded_pure (.inl ⟨rfl, fun _ => rfl⟩)
  | none =>
  -- The artifact first: no pointer changes, and it is settled before the
  -- pointer is written.
  have hartifact : ∀ d', SameFinals
      (d.put (zipName (L.sha256Hex data)) (some ⟨data, true⟩)) d' →
        Unchanged L d d' := by
    intro d' hd' b'
    rw [hd'.files (final_pointerName L b'), Directory.files_put,
      if_neg (pointerName_ne_zipName L b' _)]
  refine guarded_bind (writeAtomic_guarded (final_zipName _) hsame
    (fun d₁ d₂ h₁ h₂ hkept => .between hkept h₁ Advance.place_artifact h₂)
    (fun _ hkept => .settle hkept) (fun _ _ hd' => .inl hd'.unchanged)
    (fun _ hd' => .inl (hartifact _ hd')) fun d₁ hd₁ _ => ?_)
  have hunchanged : Unchanged L d d₁ := by
    intro b'
    rw [hd₁.files (final_pointerName L b')]
    exact hartifact _ (.refl _) b'
  refine guarded_bind ?_
  cases htext : L.canonicalJson (pointerDoc (L.sha256Hex data) fit.cutoff) with
  | error e => exact guarded_error (.inl hunchanged)
  | ok text =>
  refine guarded_ok ?_
  obtain ⟨q, hfinite⟩ : ∃ q, fit.cutoff.number? = some (.finite q) := by
    rcases number?_of_checkAge (decode_eq_ok L hdecode).2.2 with hnan | hfinite
    · rw [hnan] at htext
      exact absurd htext (L.nan_not_written _ _)
    · exact hfinite
  have hnames : Names L d₁ b text (L.sha256Hex data) data fit q := by
    refine ⟨htext, hfinite, rfl, fun f hf => ?_, ks, hdecode⟩
    rw [hd₁ _ (final_zipName _), Directory.entries_syncEntries,
      List.mem_singleton, Directory.files_put, if_pos rfl] at hf
    exact hf
  exact pointer_guarded hunchanged hnames hdecode
    (newer_of_notNewer hcur hfinite hnewer)

end Promotions

section Runs

variable (L : Libraries)

/-- One thing that happens to the store: a promotion that goes on for some of
its steps, or a crash of an allowed kind and a reopening. -/
inductive Move (Allowed : Folder → Folder → Prop) : Folder → Folder → Prop
  | promote {d} (b : Binding) (data : Bytes) (ks : KernelSettings)
      (fates : List (Fate Bytes)) {m}
      (hm : m ∈ (promote L b data ks ⟨d, fates⟩).commits) :
      Move Allowed d m.dir
  | crash {d : Folder} {left} (hleft : d.Survives left)
      (hallowed : Allowed d (.reopened left)) :
      Move Allowed d (.reopened left)

/-- Any number of such things. -/
abbrev Runs (Allowed : Folder → Folder → Prop) : Folder → Folder → Prop :=
  Relation.ReflTransGen (Move L Allowed)

/-- The folders that a store may be in. -/
def Reaches (d : Folder) : Prop := Runs L (fun _ _ => True) .empty d

variable {L} {d d' : Folder}

theorem kept_empty : Kept L .empty where
  artifacts := fun _ _ hf => .inl (List.mem_singleton.mp hf)
  pointers := fun _ _ hf => .inl (List.mem_singleton.mp hf)
  ordered := fun _ => List.pairwise_singleton _ _

/-- A chain of steps that each keep the store, from a store that is kept. -/
theorem isChain_advance {ds : List Folder} (h : Kept L d)
    (hchain : (d :: ds).IsChain fun d₁ d₂ => Kept L d₁ → Advance L d₁ d₂) :
    (d :: ds).IsChain (Advance L) ∧ ∀ d' ∈ ds, Advance L d d' := by
  induction ds generalizing d with
  | nil => exact ⟨.singleton d, fun _ hd' => (nomatch hd')⟩
  | cons next rest ih =>
      rw [List.isChain_cons_cons] at hchain
      have hnext := hchain.1 h
      obtain ⟨hrest, hlater⟩ := ih hnext.kept hchain.2
      refine ⟨List.isChain_cons_cons.mpr ⟨hnext, hrest⟩, fun d' hd' => ?_⟩
      rcases List.mem_cons.mp hd' with rfl | hlast
      · exact hnext
      · exact hnext.trans (hlater d' hlast)

/-- The folders after the steps of a promotion. -/
theorem promote_advance (h : Kept L d) (b : Binding) (data : Bytes)
    (ks : KernelSettings) (fates : List (Fate Bytes)) :
    (d :: (promote L b data ks ⟨d, fates⟩).commits.map Machine.dir).IsChain
        (Advance L) ∧
      ∀ m ∈ (promote L b data ks ⟨d, fates⟩).commits,
        Advance L d m.dir := by
  have hchain := (@promote_guarded L d b data ks h fates).1
  have hmap := (List.isChain_map (f := Machine.dir)
    (R := fun d₁ d₂ => Kept L d₁ → Advance L d₁ d₂)).mpr hchain
  obtain ⟨hadvance, hall⟩ := isChain_advance h hmap
  exact ⟨hadvance, fun m hm => hall _ (List.mem_map_of_mem hm)⟩

theorem Kept.settled_pointer (h : Kept L d) (b : Binding) :
    d.Settled (pointerName L b) := by
  intro f hf file hfile
  rcases h.pointers b f hf with hnone | ⟨text, sha, data, fit, q, hsome, -⟩
  · rw [hnone] at hfile
    cases hfile
  · rw [hsome] at hfile
    cases hfile
    rfl

theorem Kept.settled_artifact (h : Kept L d) (sha : String) :
    d.Settled (zipName sha) := by
  intro f hf file hfile
  rcases h.artifacts sha f hf with hnone | ⟨data, hsome, -⟩
  · rw [hnone] at hfile
    cases hfile
  · rw [hsome] at hfile
    cases hfile
    rfl

/-- A crash leaves every pointer with one of its entries, none below the
floor. -/
theorem Kept.crash (h : Kept L d) {left : String → Option Bytes}
    (hleft : d.Survives left) :
    Kept L (.reopened left) ∧ ∀ b,
      (Directory.reopened left).files (pointerName L b) ∈
        d.entries (pointerName L b) := by
  have hpointer := fun b => hleft.mem_entries (h.settled_pointer b)
  refine ⟨h.of_sublist (fun sha f hf => .inl ?_) fun b => ?_, hpointer⟩
  · rw [List.mem_singleton.mp hf]
    exact hleft.mem_entries (h.settled_artifact sha)
  · exact List.singleton_sublist.mpr (hpointer b)

variable {Allowed : Folder → Folder → Prop}

theorem Move.kept (h : Kept L d) (hmove : Move L Allowed d d') :
    Kept L d' ∧ ∀ b, floorAt L d b ≤ floorAt L d' b := by
  cases hmove with
  | promote b data ks fates hm =>
      have hadvance := (promote_advance h b data ks fates).2 _ hm
      exact ⟨hadvance.kept, hadvance.floors⟩
  | crash hleft hallowed =>
      obtain ⟨hkept, hpointer⟩ := h.crash hleft
      exact ⟨hkept, fun b => h.floorAt_le (hpointer b)⟩

theorem Runs.kept (h : Kept L d) (hruns : Runs L Allowed d d') :
    Kept L d' ∧ ∀ b, floorAt L d b ≤ floorAt L d' b := by
  induction hruns with
  | refl => exact ⟨h, fun _ => le_rfl⟩
  | tail _ hmove ih =>
      obtain ⟨hkept, hfloors⟩ := ih
      obtain ⟨hkept', hfloors'⟩ := hmove.kept hkept
      exact ⟨hkept', fun b => (hfloors b).trans (hfloors' b)⟩

/-- No cutoff goes back over a run whose crashes undo no rename of a
pointer. -/
theorem Runs.cutoffs (h : Kept L d) (hruns : Runs L (Unchanged L) d d') :
    ∀ b, cutoffAt L d b ≤ cutoffAt L d' b := by
  induction hruns with
  | refl => exact fun _ => le_rfl
  | tail hbefore hmove ih =>
      intro b
      have hkept := (Runs.kept h hbefore).1
      refine (ih b).trans ?_
      cases hmove with
      | promote b' data ks fates hm =>
          exact ((promote_advance hkept b' data ks fates).2 _ hm).cutoffs b
      | crash hleft hallowed =>
          unfold cutoffAt
          rw [hallowed b]

theorem Reaches.kept (h : Reaches L d) : Kept L d := (Runs.kept kept_empty h).1

/-- The pointer of a binding names an artifact that is there, has its digest
and decodes for the binding. -/
def PointerSound (L : Libraries) (d : Folder) (b : Binding) : Prop :=
  ∀ text, d.read (pointerName L b) = some text →
    ∃ ptr sha data fit ks, L.loads text = .ok ptr ∧
      index ptr "sha256" = .ok (.str sha) ∧
      index ptr "fit_cutoff" = .ok fit.cutoff ∧
      d.read (zipName sha) = some data ∧ L.sha256Hex data = sha ∧
      decode L data sha b ks farEnd farEnd = .ok fit

theorem Kept.pointerSound (h : Kept L d) (b : Binding) :
    PointerSound L d b := by
  intro text hread
  unfold Directory.read at hread
  obtain ⟨file, hfile, rfl⟩ := Option.map_eq_some_iff.mp hread
  rcases h.pointers b _ (mem_entries_files d _) with
    hnone | ⟨text, sha, data, fit, q, hsome, hnames⟩
  · rw [hfile] at hnone
    cases hnone
  · rw [hfile] at hsome
    cases hsome
    obtain ⟨ptr, hloads, hsha, hcutoff⟩ := hnames.loads
    obtain ⟨ks, hdecode⟩ := hnames.decodes
    exact ⟨ptr, sha, data, fit, ks, hloads, hsha, hcutoff, hnames.read,
      hnames.digest, hdecode⟩

/-- A snapshot is decoded from the bytes that its digest names. -/
theorem loadSnapshot_eq_ok (h : Kept L d) {b : Binding} {ks : KernelSettings}
    {inputEnd : ℤ} {fates : List (Fate Bytes)} {sha : String} {fit : E1Fit}
    (hresult : (loadSnapshot L b ks inputEnd ⟨d, fates⟩).result =
      .ok (some (sha, fit))) :
    ∃ data, d.read (zipName sha) = some data ∧ L.sha256Hex data = sha ∧
      decode L data sha b ks inputEnd maxFitAgeSeconds = .ok fit := by
  have hguarded : Guarded (fun _ _ => True) (fun _ _ => True)
      (loadSnapshot L b ks inputEnd) (fun result _ => ∀ sha fit,
        result = some (sha, fit) → ∃ data, d.read (zipName sha) = some data ∧
          L.sha256Hex data = sha ∧
          decode L data sha b ks inputEnd maxFitAgeSeconds = .ok fit) d := by
    refine guarded_bind (guarded_mono (current_guarded h trivial)
      (fun _ _ _ => trivial) ?_)
    rintro cur d' ⟨-, hcur⟩
    cases hcur with
    | absent hfile => exact guarded_pure fun _ _ hnone => (nomatch hnone)
    | promoted hfile hnames =>
        rename_i text sha data fit q
        refine guarded_bind ?_
        cases hdecode : decode L data sha b ks inputEnd maxFitAgeSeconds with
        | error e => exact guarded_error trivial
        | ok fit' =>
            refine guarded_ok (guarded_pure fun sha' fit'' hsome => ?_)
            cases hsome
            exact ⟨data, hnames.read, hnames.digest, hdecode⟩
  have hend := (hguarded fates).2
  rw [hresult] at hend
  exact hend sha fit rfl

/-- What holds of a store that is reached. -/
structure StoreSound (L : Libraries) (d : Folder) : Prop where
  pointers : ∀ b, PointerSound L d b
  /-- From step to step of a promotion no cutoff decreases. -/
  steps : ∀ b data ks fates,
    (d :: (promote L b data ks ⟨d, fates⟩).commits.map Machine.dir).IsChain
      fun d₁ d₂ => ∀ b', cutoffAt L d₁ b' ≤ cutoffAt L d₂ b'
  returns : ∀ b data ks fates result,
    (promote L b data ks ⟨d, fates⟩).result = .ok result →
      Reported L b data ks d result
        ((promote L b data ks ⟨d, fates⟩).store ⟨d, fates⟩).dir
  raises : ∀ b data ks fates e,
    (promote L b data ks ⟨d, fates⟩).result = .error e →
      LeftBehind L b data ks d e
        ((promote L b data ks ⟨d, fates⟩).store ⟨d, fates⟩).dir
  /-- A failed promotion leaves every pointer unchanged, except where the sync
  of the directory failed after the rename of the pointer. -/
  kept_iff : ∀ b data ks fates e,
    (promote L b data ks ⟨d, fates⟩).result = .error e →
      (Unchanged L d ((promote L b data ks ⟨d, fates⟩).store ⟨d, fates⟩).dir ↔
        ¬(e = osError .syncDirectory ∧ Promoted L b data ks d
          ((promote L b data ks ⟨d, fates⟩).store ⟨d, fates⟩).dir))
  /-- Over a run whose crashes undo no rename of a pointer no cutoff decreases;
  over any run none goes below the last one that was synced. -/
  runs : ∀ d' b, (Runs L (Unchanged L) d d' →
      cutoffAt L d b ≤ cutoffAt L d' b) ∧
    (Runs L (fun _ _ => True) d d' → floorAt L d b ≤ cutoffAt L d' b)
  /-- A crash undoes what was renamed since the directory was synced, if it
  undoes anything. -/
  crashes : ∀ left, d.Survives left → ∀ b,
    (Directory.reopened left).files (pointerName L b) ∈
      d.files (pointerName L b) :: d.earlier (pointerName L b)
  snapshots : ∀ b ks inputEnd fates sha fit,
    (loadSnapshot L b ks inputEnd ⟨d, fates⟩).result =
        .ok (some (sha, fit)) →
      ∃ data, d.read (zipName sha) = some data ∧ L.sha256Hex data = sha ∧
        decode L data sha b ks inputEnd maxFitAgeSeconds = .ok fit

/-- Promotion is monotone and crash-safe, up to what a directory that was not
synced loses or keeps. -/
theorem reaches_storeSound (h : Reaches L d) : StoreSound L d := by
  have hkept := h.kept
  have hraises : ∀ b data ks fates e,
      (promote L b data ks ⟨d, fates⟩).result = .error e →
        LeftBehind L b data ks d e
          ((promote L b data ks ⟨d, fates⟩).store ⟨d, fates⟩).dir := by
    intro b data ks fates e hresult
    have hend := (@promote_guarded L d b data ks hkept fates).2
    rw [hresult] at hend
    exact hend
  refine
    { pointers := hkept.pointerSound
      steps := fun b data ks fates => ?_
      returns := fun b data ks fates result hresult => ?_
      raises := hraises
      kept_iff := fun b data ks fates e hresult =>
        (hraises b data ks fates e hresult).unchanged_iff
      runs := fun d' b => ⟨fun hruns => hruns.cutoffs hkept b,
        fun hruns => ?_⟩
      crashes := fun left hleft => (hkept.crash hleft).2
      snapshots := fun _ _ _ _ _ _ hresult => loadSnapshot_eq_ok hkept hresult }
  · exact (promote_advance hkept b data ks fates).1.imp
      fun _ _ hadvance => hadvance.cutoffs
  · have hend := (@promote_guarded L d b data ks hkept fates).2
    rw [hresult] at hend
    exact hend
  · obtain ⟨hkept', hfloors⟩ := Runs.kept hkept hruns
    exact (hfloors b).trans (hkept'.floorAt_le (mem_entries_files d' _))

end Runs

namespace ArtifactsWitness

/-- A digest that spells the bytes. -/
def digest (bytes : Bytes) : String :=
  String.ofList (bytes.map fun byte => Char.ofNat byte.toNat)

theorem digest_injective : Function.Injective digest := by
  intro xs ys h
  refine List.map_injective_iff.mpr (fun x y hxy => ?_)
    (String.ofList_injective h)
  have hx := x.toNat_lt
  have hy := y.toNat_lt
  have hvalid : ∀ n < 256, (Char.ofNat n).toNat = n := by decide +kernel
  have hnat := congrArg Char.toNat hxy
  rw [hvalid _ hx, hvalid _ hy] at hnat
  exact UInt8.toNat_inj.mp hnat

def binding : Binding := ⟨"a", "t", "q", "c", 600, "daily", recipeE1⟩

def kernel : KernelSettings :=
  ⟨600, 86400, 7, 3, 3, 7, 36, 21600, 2, 14, 1 / 2, 7, 15 / 16, 200⟩

/-- An artifact's bytes, its manifest's and its arrays'. -/
def artifact : Bytes := [1]

def manifestText : Bytes := [2]

def seasonText : Bytes := [3]

def coefText : Bytes := [4]

def arrayDoc (blob : Bytes) (n : ℤ) : Value :=
  .dict [("dtype", .str "<f8"), ("shape", .list [.int n]),
    ("sha256", .str (digest blob))]

def manifest : Value :=
  .dict [("schema", .str artifactSchema), ("recipe", .str recipeE1),
    ("binding", .dict binding.asdict), ("fit_cutoff", .int 600),
    ("input_lo", .int 0), ("input_sha256", .str "i"),
    ("kernel_settings", .dict kernel.canonical),
    ("hw", .dict (hwFields.map fun k => (k, .int 0))), ("ar_rows", .int 36),
    ("arrays", .dict [("hw_season", arrayDoc seasonText 144),
      ("ar_coef", arrayDoc coefText 4)])]

def textOf (s : String) : Bytes := s.toList.map fun c => UInt8.ofNat c.toNat

def pointerText : Bytes :=
  textOf "\x7b\"fit_cutoff\":600,\"sha256\":\"" ++ artifact ++ textOf "\"\x7d"

/-- The text of `binding`, and another one for each other binding. -/
def bindingText (b : Binding) : Bytes :=
  if b = binding then textOf "binding"
  else 0 :: List.replicate (Encodable.encode
    ([b.autoscalerUid, b.targetUid, b.querySha256, b.signalContract,
      b.seasonality, b.recipe].map fun s => s.toList.map Char.toNat,
      b.intervalSeconds)) 0

theorem bindingText_injective : Function.Injective bindingText := by
  intro b b' h
  unfold bindingText at h
  split at h
  · rename_i hb
    split at h
    · rename_i hb'
      rw [hb, hb']
    · exact absurd (List.cons.inj h).1 (by decide)
  · split at h
    · exact absurd (List.cons.inj h).1 (by decide)
    · have hcode := congrArg List.length (List.cons.inj h).2
      rw [List.length_replicate, List.length_replicate] at hcode
      have hpair := Encodable.encode_injective hcode
      have htexts := (Prod.mk.inj hpair).1
      have hnat : ∀ s t : String,
          s.toList.map Char.toNat = t.toList.map Char.toNat → s = t :=
        fun s t hst => String.toList_injective
          (List.map_injective_iff.mpr (fun _ _ hc => Char.toNat_inj.mp hc) hst)
      simp only [List.map_cons, List.map_nil, List.cons.injEq] at htexts
      obtain ⟨h₁, h₂, h₃, h₄, h₅, h₆, -⟩ := htexts
      cases b
      cases b'
      simp only [Binding.mk.injEq]
      exact ⟨hnat _ _ h₁, hnat _ _ h₂, hnat _ _ h₃, hnat _ _ h₄,
        (Prod.mk.inj hpair).2, hnat _ _ h₅, hnat _ _ h₆⟩

/-- The texts of the one pointer that is written here and of bindings. -/
def canonicalJson : Value → Except PyException Bytes
  | .dict [("sha256", .str sha), ("fit_cutoff", .int n)] =>
      if sha = digest artifact ∧ n = 600 then .ok pointerText
      else .error (.valueError "another pointer")
  | .dict [("schema", _), ("autoscaler_uid", .str a), ("target_uid", .str t),
      ("query_sha256", .str q), ("signal_contract", .str c),
      ("interval_seconds", .int n), ("seasonality", .str y),
      ("recipe", .str r)] => .ok (bindingText ⟨a, t, q, c, n, y, r⟩)
  | _ => .error (.valueError "another record")

def pointer : List (String × Value) :=
  [("fit_cutoff", .int 600), ("sha256", .str (digest artifact))]

theorem eq_of_written {sha : String} {cutoff : Value} {text : Bytes}
    (h : canonicalJson (pointerDoc sha cutoff) = .ok text) :
    sha = digest artifact ∧ cutoff = .int 600 ∧ text = pointerText := by
  unfold canonicalJson pointerDoc at h
  cases cutoff with
  | int n =>
      change (if sha = digest artifact ∧ n = 600 then Except.ok pointerText
        else .error (PyException.valueError "another pointer")) = .ok text at h
      split at h
      · rename_i hsame
        cases h
        exact ⟨hsame.1, by rw [hsame.2], rfl⟩
      · cases h
  | none => cases h
  | bool b => cases h
  | float x => cases h
  | str s => cases h
  | list items => cases h
  | dict members => cases h

def libraries : Libraries where
  sha256Hex := digest
  unzip := fun _ => .ok [("manifest.json", .ok manifestText),
    ("ar_coef.npy", .ok coefText), ("hw_season.npy", .ok seasonText)]
  npLoad := fun blob =>
    let n := if blob = seasonText then 144 else 4
    .ok ⟨"<f8", [n], true, .ok (List.replicate n 0)⟩
  loads := fun text =>
    if text = pointerText then .ok (.dict pointer) else .ok manifest
  canonicalJson := canonicalJson
  format := fun v =>
    match v with
    | .str s => s
    | _ => ""
  bindingText := bindingText
  sha256_injective := digest_injective
  format_str := fun _ => rfl
  binding_written := fun _ => rfl
  bindingText_injective := bindingText_injective
  loads_pointer := fun h => by
    obtain ⟨rfl, rfl, rfl⟩ := eq_of_written h
    exact ⟨pointer, if_pos rfl, rfl, rfl⟩
  nan_not_written := fun _ _ h => (nomatch (eq_of_written h).2.1)

/-- The ninth step of the first promotion, the sync of the directory after the
pointer's rename, works or fails. -/
def promotion (last : Fate Bytes) :
    Ended (Machine String Bytes) ArtifactError (String × Bool) :=
  promote libraries binding artifact kernel
    ⟨.empty, List.replicate 8 .works ++ [last]⟩

/-- The folder that the promotion leaves. -/
def after (last : Fate Bytes) : Folder :=
  ((promotion last).store ⟨.empty, List.replicate 8 .works ++ [last]⟩).dir

/-- What a crash leaves when it undoes every rename that is not synced. -/
def undone (d : Folder) (name : String) : Option Bytes :=
  (oldest d name).map File.content

theorem survives_undone (d : Folder) : d.Survives (undone d) := by
  intro name
  refine ⟨oldest d name, oldest_mem_entries d name, ?_⟩
  unfold undone
  cases oldest d name with
  | none => rfl
  | some file =>
      obtain ⟨content, synced⟩ := file
      cases synced with
      | true => rfl
      | false => trivial

/-- A promotion fails in the sync of the directory: it has raised, and its
pointer has changed; then a crash takes the pointer back. -/
theorem failed_promotion_changes_pointer :
    (promotion (.fails none)).result = .error (osError .syncDirectory) ∧
      Directory.empty.read (pointerName libraries binding) =
        (none : Option Bytes) ∧
      (after (.fails none)).read (pointerName libraries binding) =
        some pointerText ∧
      (after (.fails none)).Survives (undone (after (.fails none))) ∧
      (Directory.reopened (undone (after (.fails none)))).read
        (pointerName libraries binding) = none := by
  refine ⟨?_, rfl, ?_, survives_undone _, ?_⟩
  · decide +kernel
  · decide +kernel
  · decide +kernel

/-- The store after a promotion that worked, and what holds of it. -/
theorem promoted_sound : ∃ d, Reaches libraries d ∧
    d.read (pointerName libraries binding) = some pointerText ∧
      StoreSound libraries d := by
  have hlast : ((promotion .works).commits[8]?.map fun m =>
      m.dir.read (pointerName libraries binding)) =
        some (some pointerText) := by
    decide +kernel
  obtain ⟨m, hm, hread⟩ := Option.map_eq_some_iff.mp hlast
  have hreaches : Reaches libraries m.dir :=
    .single (.promote binding artifact kernel _ (List.mem_of_getElem? hm))
  exact ⟨_, hreaches, hread, reaches_storeSound hreaches⟩

end ArtifactsWitness

end PredictiveAutoscaler.Forecasting.Artifacts
