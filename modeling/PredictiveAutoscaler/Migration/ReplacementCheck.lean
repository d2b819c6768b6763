/-
The check of a replacement.  It passes exactly when every path of the legacy
spec is kept as the check reads paths, values and quantities; what is created
and served passes; and what passes is migrated where those readings are the
strict ones.
-/
import PredictiveAutoscaler.Migration.Replacement

namespace PredictiveAutoscaler.Migration

/-- How paths and values are read: the paths that are left out, and when the
value at a path, other than a `dict`, is kept by what its parent in the
replacement holds. -/
structure Reading where
  exempt : List String → Prop
  leaf : List String → (parent nv v : Value) → Prop

def Reading.judge (R : Reading) (ks : List String) (parent nv : Value) :
    Value → Prop
  | .dict _ => nv.isDict = true
  | v => R.leaf ks parent nv v

/-- The value that the value at a relative path is read from. -/
def parentAt (parent nv : Value) : List String → Value
  | [] => parent
  | k :: rel => nv.readAt (k :: rel).dropLast

/-- Every path that is set below a path is left out or kept. -/
def Keeps (R : Reading) (ks : List String) (parent nv v : Value) : Prop :=
  ∀ rel w, v.at? rel = some w →
    (∃ pre, pre <+: rel ∧ R.exempt (ks ++ pre)) ∨
      R.judge (ks ++ rel) (parentAt parent nv rel) (nv.readAt rel) w

/-- Every path that is set in the legacy spec is left out or kept. -/
def Kept (R : Reading) (legacy new : Value) : Prop :=
  Keeps R [] new new legacy

theorem at?_cons (v : Value) (k : String) (ks : List String) :
    v.at? (k :: ks) = (v.at? [k]).bind fun w => w.at? ks := by
  cases v with
  | dict members =>
      simp only [Value.at?]
      cases members.lookup k <;> rfl
  | _ => rfl

theorem parentAt_cons (parent nv : Value) (k : String) (rel : List String) :
    parentAt parent nv (k :: rel) = parentAt nv (nv.get k) rel := by
  cases rel <;> rfl

/-- A path is kept with everything below it: by itself and member by
member. -/
theorem keeps_iff {R : Reading} {ks : List String} {parent nv v : Value} :
    Keeps R ks parent nv v ↔
      R.exempt ks ∨ R.judge ks parent nv v ∧
        ∀ k u, v.at? [k] = some u → Keeps R (ks ++ [k]) nv (nv.get k) u := by
  constructor
  · intro h
    by_cases hexempt : R.exempt ks
    · exact .inl hexempt
    · have hself : ¬R.exempt (ks ++ []) := by rwa [List.append_nil]
      refine .inr ⟨?_, fun k u hu rel w hw => ?_⟩
      · rcases h [] v rfl with ⟨pre, hpre, hex⟩ | hjudge
        · rw [List.prefix_nil.mp hpre] at hex
          exact absurd hex hself
        · rwa [List.append_nil] at hjudge
      · have hset : v.at? (k :: rel) = some w := by
          rw [at?_cons, hu]
          exact hw
        rcases h (k :: rel) w hset with ⟨pre, hpre, hex⟩ | hjudge
        · cases pre with
          | nil => exact absurd hex hself
          | cons k' pre =>
              obtain ⟨rfl, hrest⟩ := List.cons_prefix_cons.mp hpre
              refine .inl ⟨pre, hrest, ?_⟩
              rwa [List.append_assoc]
        · refine .inr ?_
          rw [parentAt_cons] at hjudge
          rwa [List.append_assoc]
  · rintro (hexempt | ⟨hjudge, hbelow⟩) rel w hw
    · exact .inl ⟨[], List.nil_prefix, by rwa [List.append_nil]⟩
    · cases rel with
      | nil =>
          cases hw
          rw [List.append_nil]
          exact .inr hjudge
      | cons k rel =>
          rw [at?_cons] at hw
          obtain ⟨u, hu, hw⟩ := Option.bind_eq_some_iff.mp hw
          rcases hbelow k u hu rel w hw with ⟨pre, hpre, hex⟩ | hbelow
          · refine .inl ⟨k :: pre, List.cons_prefix_cons.mpr ⟨rfl, hpre⟩, ?_⟩
            rwa [List.append_assoc] at hex
          · refine .inr ?_
            rw [parentAt_cons]
            rwa [List.append_assoc] at hbelow

/-- The dotted text of a path. -/
def textOf (ks : List String) : String := ks.foldl pathText ""

theorem textOf_concat (ks : List String) (k : String) :
    textOf (ks ++ [k]) = pathText (textOf ks) k := by
  unfold textOf
  rw [List.foldl_append]
  rfl

section Check

variable (decimal : String → Option Decimal)

/-- Paths by their dotted text, values by Python's equality, quantities by
their rounded product. -/
def checkReading : Reading where
  exempt ks := exempt (textOf ks) = true
  leaf ks parent nv v := ∃ b, carried decimal (textOf ks) parent nv v = .ok b ∧
    (b = true ∨ v.eq nv = true)

theorem eq_dict_isDict {members : List (String × Value)} {nv : Value}
    (h : (Value.dict members).eq nv = true) : nv.isDict = true := by
  cases nv with
  | dict members' => rfl
  | _ => simp [Value.eq, Value.number?] at h

theorem carried_of_not_none {path : String} {parent nv v : Value}
    (h : isNone nv = false) : carried decimal path parent nv v = .ok false := by
  unfold carried
  rw [if_neg]
  rintro ⟨-, hnone, -⟩
  rw [h] at hnone
  cases hnone

/-- A `dict` is no quantity. -/
theorem carried_dict {path : String} {parent nv : Value}
    {members : List (String × Value)} {b : Bool}
    (h : carried decimal path parent nv (.dict members) = .ok b) :
    b = false := by
  unfold carried at h
  split at h
  · cases hq : quantity decimal (parent.get "capacityPerReplica") with
    | error e =>
        rw [hq] at h
        cases h
    | ok c =>
        rw [hq] at h
        cases c <;> cases h <;> rfl
  · cases h
    rfl

theorem valueDifferences_dict {path : String} {parent nv : Value}
    {members : List (String × Value)} :
    valueDifferences decimal path parent nv (.dict members) = .ok [] ↔
      exempt path = true ∨ nv.isDict = true ∧
        memberDifferences decimal path nv members = .ok [] := by
  unfold valueDifferences
  by_cases hexempt : exempt path = true
  · rw [if_pos hexempt]
    exact iff_of_true rfl (.inl hexempt)
  · rw [if_neg hexempt]
    by_cases hdict : nv.isDict = true
    · have hsome : isNone nv = false := by
        cases nv with
        | dict members' => rfl
        | _ => cases hdict
      rw [carried_of_not_none decimal hsome, or_iff_right hexempt,
        and_iff_right hdict]
      change (if nv.isDict = true then _ else _) = _ ↔ _
      rw [if_pos hdict]
    · refine iff_of_false (fun h => ?_) (by tauto)
      cases hcarried : carried decimal path parent nv (.dict members) with
      | error e =>
          rw [hcarried] at h
          cases h
      | ok b =>
          have heq : ¬(Value.dict members).eq nv = true := fun heq =>
            hdict (eq_dict_isDict heq)
          rw [hcarried, carried_dict decimal hcarried] at h
          change (if nv.isDict = true then _ else
            if (Value.dict members).eq nv = true then _ else _) = _ at h
          rw [if_neg hdict, if_neg heq] at h
          cases h

theorem valueDifferences_leaf {path : String} {parent nv v : Value}
    (hleaf : v.isDict = false) :
    valueDifferences decimal path parent nv v = .ok [] ↔
      exempt path = true ∨ ∃ b, carried decimal path parent nv v = .ok b ∧
        (b = true ∨ v.eq nv = true) := by
  have hequation : valueDifferences decimal path parent nv v =
      if exempt path = true then .ok []
      else (do
        if ← carried decimal path parent nv v then return []
        else if v.eq nv then return []
        else return [path]) := by
    cases v with
    | dict members => cases hleaf
    | _ => rfl
  rw [hequation]
  by_cases hexempt : exempt path = true
  · rw [if_pos hexempt]
    exact iff_of_true rfl (.inl hexempt)
  · rw [if_neg hexempt, or_iff_right hexempt]
    cases hcarried : carried decimal path parent nv v with
    | error e => exact iff_of_false nofun (fun ⟨b, hb, _⟩ => nomatch hb)
    | ok b =>
        cases b with
        | true => exact iff_of_true rfl ⟨true, rfl, .inl rfl⟩
        | false =>
            by_cases heq : v.eq nv = true
            · refine iff_of_true ?_ ⟨false, rfl, .inr heq⟩
              change (if v.eq nv = true then _ else _) = _
              rw [if_pos heq]
              rfl
            · refine iff_of_false (fun h => ?_) ?_
              · change (if v.eq nv = true then _ else _) = _ at h
                rw [if_neg heq] at h
                cases h
              · rintro ⟨b, hb, hor⟩
                cases hb
                exact hor.elim nofun heq

theorem at?_leaf {v : Value} (hleaf : v.isDict = false) (k : String) :
    v.at? [k] = none := by
  cases v with
  | dict members => cases hleaf
  | _ => rfl

theorem at?_dict (members : List (String × Value)) (k : String) :
    (Value.dict members).at? [k] = members.lookup k := by
  simp only [Value.at?]
  cases members.lookup k <;> rfl

theorem append_eq_ok_nil {x y : Except Raised (List String)} :
    (do
      let here ← x
      let others ← y
      return here ++ others) = .ok [] ↔ x = .ok [] ∧ y = .ok [] := by
  constructor
  · intro h
    cases x with
    | error e => cases h
    | ok here =>
        cases y with
        | error e => cases h
        | ok others =>
            obtain ⟨rfl, rfl⟩ := List.append_eq_nil_iff.mp (Except.ok.inj h)
            exact ⟨rfl, rfl⟩
  · rintro ⟨rfl, rfl⟩
    rfl

theorem valueDifferences_atom {ks : List String} {parent nv v : Value}
    (hleaf : v.isDict = false) :
    valueDifferences decimal (textOf ks) parent nv v = .ok [] ↔
      Keeps (checkReading decimal) ks parent nv v := by
  have hjudge : (checkReading decimal).judge ks parent nv v =
      (checkReading decimal).leaf ks parent nv v := by
    cases v with
    | dict members => cases hleaf
    | _ => rfl
  rw [valueDifferences_leaf decimal hleaf, keeps_iff, hjudge]
  refine or_congr_right (and_iff_left ?_).symm
  intro k u hu
  rw [at?_leaf hleaf] at hu
  cases hu

mutual

/-- No difference at a value, exactly when it is kept with everything below
it. -/
theorem valueDifferences_eq_nil : ∀ (v : Value) (ks : List String)
    (parent nv : Value), v.IsJson →
    (valueDifferences decimal (textOf ks) parent nv v = .ok [] ↔
      Keeps (checkReading decimal) ks parent nv v)
  | .dict members, ks, parent, nv, hjson => by
      have hmembers := memberDifferences_eq_nil members ks nv hjson.2
      rw [valueDifferences_dict, keeps_iff, hmembers]
      refine or_congr_right (and_congr_right fun _ => ?_)
      constructor
      · intro h k u hu
        rw [at?_dict] at hu
        exact h (k, u) (Value.mem_of_lookup hu)
      · intro h m hm
        refine h m.1 m.2 ?_
        rw [at?_dict]
        exact Value.lookup_of_mem hjson.1 hm
  | .none, ks, parent, nv, _ =>
      valueDifferences_atom decimal rfl
  | .bool b, ks, parent, nv, _ =>
      valueDifferences_atom decimal rfl
  | .int n, ks, parent, nv, _ =>
      valueDifferences_atom decimal rfl
  | .float x, ks, parent, nv, _ =>
      valueDifferences_atom decimal rfl
  | .str s, ks, parent, nv, _ =>
      valueDifferences_atom decimal rfl
  | .list items, ks, parent, nv, _ =>
      valueDifferences_atom decimal rfl

theorem memberDifferences_eq_nil : ∀ (members : List (String × Value))
    (ks : List String) (new : Value), Value.membersIsJson members →
    (memberDifferences decimal (textOf ks) new members = .ok [] ↔
      ∀ m ∈ members,
        Keeps (checkReading decimal) (ks ++ [m.1]) new (new.get m.1) m.2)
  | [], ks, new, _ =>
      iff_of_true rfl fun m hm => absurd hm List.not_mem_nil
  | (k, v) :: rest, ks, new, hjson => by
      have hhere := valueDifferences_eq_nil v (ks ++ [k]) new (new.get k)
        hjson.1
      have hrest := memberDifferences_eq_nil rest ks new hjson.2
      rw [textOf_concat] at hhere
      rw [List.forall_mem_cons, ← hhere, ← hrest]
      exact append_eq_ok_nil

end

/-- What the check asks for, in its own readings. -/
structure Accepted (entry : Entry) (new : Obj) : Prop where
  provenance : provenance new = (some entry.source.ref, some entry.source.uid)
  target : ∃ target, targetOf new = .ok target ∧
    target.1.eq entry.target.1 = true ∧ target.2.eq entry.target.2 = true
  spec : Kept (checkReading decimal) entry.source.spec.value new.spec.value

theorem specDifferences_eq_nil (legacy : Members) (new : Members) :
    specDifferences decimal legacy.list new.value = .ok [] ↔
      Kept (checkReading decimal) legacy.value new.value := by
  unfold Kept
  rw [← valueDifferences_eq_nil decimal legacy.value [] _ _ legacy.json]
  change _ ↔ valueDifferences decimal (textOf []) new.value new.value
    (.dict legacy.list) = .ok []
  rw [valueDifferences_dict]
  have hroot : ¬exempt (textOf []) = true := by decide
  rw [or_iff_right hroot]
  exact (and_iff_right rfl).symm

/-- The check has no problem exactly with what it asks for. -/
theorem identityProblems_eq_nil (entry : Entry) (new : Obj) :
    identityProblems decimal new entry = .ok [] ↔
      Accepted decimal entry new := by
  have hspec := specDifferences_eq_nil decimal entry.source.spec new.spec
  unfold identityProblems
  dsimp only
  constructor
  · intro h
    cases htarget : targetOf new with
    | error e =>
        rw [htarget] at h
        cases h
    | ok target =>
        rw [htarget] at h
        cases hdiff : specDifferences decimal entry.source.spec.list
            new.spec.value with
        | error e =>
            rw [hdiff] at h
            cases h
        | ok differences =>
            rw [hdiff] at h
            obtain ⟨hfirst, rfl⟩ := List.append_eq_nil_iff.mp (Except.ok.inj h)
            obtain ⟨hprovenance, hsame⟩ := List.append_eq_nil_iff.mp hfirst
            refine ⟨?_, ⟨target, htarget, ?_⟩, hspec.mp hdiff⟩
            · by_contra hne
              rw [if_pos hne] at hprovenance
              cases hprovenance
            · by_contra hne
              rw [← Bool.and_eq_true, Bool.not_eq_true] at hne
              rw [hne] at hsame
              cases hsame
  · rintro ⟨hprovenance, ⟨target, htarget, hns, hname⟩, hkept⟩
    rw [htarget, hspec.mpr hkept, if_neg (not_not.mpr hprovenance)]
    change Except.ok (_ ++ (if !(target.1.eq entry.target.1 &&
      target.2.eq entry.target.2) then _ else []) ++ []) = _
    rw [hns, hname]
    rfl

/-- The quantity that a value denotes, not rounded. -/
def exactQuantity : Value → Option Decimal
  | .int n => some (.finite n)
  | .str v =>
      let (num, mult) := splitSuffix v
      match decimal num with
      | some (.finite q) => some (.finite (q * mult))
      | other => other
  | _ => none

/-- The capacity that a legacy `targetRPS` is carried in is an equal
quantity. -/
def CarriedExactly (capacity v : Value) : Prop :=
  ∃ x y, exactQuantity decimal capacity = some x ∧
    exactQuantity decimal v = some y ∧ x.eq y = true

/-- Paths by their keys, the same JSON, equal quantities. -/
def strictReading : Reading where
  exempt ks := ks = ["mode"] ∨ ks = ["targetDeployment", "namespace"]
  leaf ks parent nv v := v.same nv = true ∨
    ks = ["metrics", "requests", "targetRPS"] ∧ isNone nv = true ∧
      CarriedExactly decimal (parent.get "capacityPerReplica") v

/-- The replacement names the recorded source and target, and has every path
that the legacy spec sets. -/
structure Migrated (entry : Entry) (new : Obj) : Prop where
  provenance : provenance new = (some entry.source.ref, some entry.source.uid)
  target : ∃ target, targetOf new = .ok target ∧
    target.1.same entry.target.1 = true ∧ target.2.same entry.target.2 = true
  spec : Kept (strictReading decimal) entry.source.spec.value new.spec.value

/-- The path is not, and is not below, one that a replacement sets anew. -/
def Required (ks : List String) : Prop :=
  ∀ pre, pre <+: ks → ¬(strictReading decimal).exempt pre

/-- How the check passes a path that is not kept: a path above it has the
dotted text of an exempt one, a boolean stands against a number, or it is
carried in a capacity that is equal only when rounded, or under a path that
only reads as the carried one. -/
inductive Misread (new : Value) (ks : List String) (v : Value) : Prop
  | dotted (pre : List String) (hpre : pre <+: ks)
      (htext : exempt (textOf pre) = true)
      (hdiffers : ¬(strictReading decimal).judge ks (parentAt new new ks)
        (new.readAt ks) v)
  | boolean (hleaf : v.isDict = false) (heq : v.eq (new.readAt ks) = true)
      (hsame : ¬v.same (new.readAt ks) = true)
  | carried (htext : textOf ks = "metrics.requests.targetRPS")
      (hnone : isNone (new.readAt ks) = true) (x y : Decimal)
      (hx : quantity decimal ((parentAt new new ks).get "capacityPerReplica") =
        .ok (some x))
      (hy : quantity decimal v = .ok (some y)) (hxy : x.eq y = true)
      (honly : ks = ["metrics", "requests", "targetRPS"] →
        ¬CarriedExactly decimal
          ((parentAt new new ks).get "capacityPerReplica") v)

/-- The target, or a path of the legacy spec, that the check only misreads as
kept. -/
def LooselyKept (entry : Entry) (new : Obj) : Prop :=
  (∃ target, targetOf new = .ok target ∧
    ((target.1.eq entry.target.1 = true ∧
        ¬target.1.same entry.target.1 = true) ∨
      (target.2.eq entry.target.2 = true ∧
        ¬target.2.same entry.target.2 = true))) ∨
  ∃ ks v, entry.source.spec.value.at? ks = some v ∧ Required decimal ks ∧
    Misread decimal new.spec.value ks v

/-- The paths that are treated on their own. -/
def specialPaths : List (List String) :=
  [["mode"], ["targetDeployment", "namespace"],
    ["metrics", "requests", "targetRPS"]]

/-- Where the check's readings are the strict ones: no other path has the
dotted text of a special one, no boolean stands against a number, and no
quantities are equal only when rounded. -/
structure Faithful (entry : Entry) (new : Obj) : Prop where
  paths : ∀ ks v, entry.source.spec.value.at? ks = some v →
    ∀ special ∈ specialPaths, textOf ks = textOf special → ks = special
  values : ∀ ks v, entry.source.spec.value.at? ks = some v →
    v.eq (new.spec.value.readAt ks) = true →
    v.same (new.spec.value.readAt ks) = true
  target : ∀ target, targetOf new = .ok target →
    (target.1.eq entry.target.1 = true →
      target.1.same entry.target.1 = true) ∧
    (target.2.eq entry.target.2 = true → target.2.same entry.target.2 = true)
  quantities : ∀ v, entry.source.spec.value.at?
      ["metrics", "requests", "targetRPS"] = some v →
    ∀ x y, quantity decimal (new.spec.value.readAt
        ["metrics", "requests", "capacityPerReplica"]) = .ok (some x) →
      quantity decimal v = .ok (some y) → x.eq y = true →
      CarriedExactly decimal (new.spec.value.readAt
        ["metrics", "requests", "capacityPerReplica"]) v

theorem at?_prefix {v w : Value} {pre rel : List String} (h : pre <+: rel)
    (hw : v.at? rel = some w) : ∃ u, v.at? pre = some u := by
  induction pre generalizing v rel with
  | nil => exact ⟨v, rfl⟩
  | cons k pre ih =>
      obtain ⟨rest, rfl⟩ := h
      rw [List.cons_append, at?_cons] at hw
      obtain ⟨u, hu, hw⟩ := Option.bind_eq_some_iff.mp hw
      obtain ⟨x, hx⟩ := ih (List.prefix_append pre rest) hw
      exact ⟨x, by rw [at?_cons, hu]; exact hx⟩

theorem carried_eq_true {path : String} {parent nv v : Value}
    (h : carried decimal path parent nv v = .ok true) :
    path = "metrics.requests.targetRPS" ∧ isNone nv = true ∧
      ∃ x y, quantity decimal (parent.get "capacityPerReplica") =
          .ok (some x) ∧
        quantity decimal v = .ok (some y) ∧ x.eq y = true := by
  unfold carried at h
  split at h
  · rename_i hwhere
    refine ⟨hwhere.1, hwhere.2.1, ?_⟩
    cases hx : quantity decimal (parent.get "capacityPerReplica") with
    | error e =>
        rw [hx] at h
        cases h
    | ok c =>
        cases c with
        | none =>
            rw [hx] at h
            cases h
        | some x =>
            cases hy : quantity decimal v with
            | error e =>
                rw [hx, hy] at h
                cases h
            | ok c' =>
                cases c' with
                | none =>
                    rw [hx, hy] at h
                    cases h
                | some y =>
                    rw [hx, hy] at h
                    exact ⟨x, y, rfl, rfl, Except.ok.inj h⟩
  · cases h

theorem exempt_eq_true {path : String} (h : exempt path = true) :
    path = "mode" ∨ path = "targetDeployment.namespace" := by
  unfold exempt at h
  rwa [Bool.or_eq_true, decide_eq_true_eq, decide_eq_true_eq] at h

theorem eq_none {v nv : Value} (h : v.eq nv = true)
    (hnone : isNone nv = true) : v.same nv = true := by
  cases nv with
  | none =>
      cases v with
      | none => rfl
      | _ => simp [Value.eq, Value.number?] at h
  | _ => cases hnone

/-- A quantity is an integer or a text, and neither is `None`. -/
theorem not_same_none {v nv : Value} {x : Decimal}
    (h : quantity decimal v = .ok (some x)) (hnone : isNone nv = true) :
    v.isDict = false ∧ ¬v.same nv = true := by
  cases nv with
  | none =>
      cases v with
      | int n => exact ⟨rfl, by simp [Value.same, Value.plainNumber?]⟩
      | str t => exact ⟨rfl, by simp [Value.same, Value.plainNumber?]⟩
      | _ => cases h
  | _ => cases hnone

theorem judge_leaf (R : Reading) {ks : List String} {parent nv v : Value}
    (hleaf : v.isDict = false) :
    R.judge ks parent nv v = R.leaf ks parent nv v := by
  cases v with
  | dict members => cases hleaf
  | _ => rfl

/-- A misread path is not kept. -/
theorem Misread.not_judge {new v : Value} {ks : List String}
    (h : Misread decimal new ks v) :
    ¬(strictReading decimal).judge ks (parentAt new new ks) (new.readAt ks)
      v := by
  cases h with
  | dotted pre hpre htext hdiffers => exact hdiffers
  | boolean hleaf heq hsame =>
      rw [judge_leaf _ hleaf]
      rintro (hkept | ⟨-, hnone, -⟩)
      · exact hsame hkept
      · exact hsame (eq_none heq hnone)
  | carried htext hnone x y hx hy hxy honly =>
      obtain ⟨hleaf, hsame⟩ := not_same_none decimal hy hnone
      rw [judge_leaf _ hleaf]
      rintro (hkept | ⟨hpath, -, hcarried⟩)
      · exact hsame hkept
      · exact honly hpath hcarried

/-- A leaf that the check keeps is kept, or the check misreads it. -/
theorem judge_or_misread {new v : Value} {ks : List String}
    (h : (checkReading decimal).judge ks (parentAt new new ks) (new.readAt ks)
      v) :
    (strictReading decimal).judge ks (parentAt new new ks) (new.readAt ks) v ∨
      Misread decimal new ks v := by
  by_cases hleaf : v.isDict = false
  · rw [judge_leaf _ hleaf] at h ⊢
    obtain ⟨b, hb, rfl | heq⟩ := h
    · obtain ⟨htext, hnone, x, y, hx, hy, hxy⟩ := carried_eq_true decimal hb
      by_cases hcarried : ks = ["metrics", "requests", "targetRPS"] ∧
          CarriedExactly decimal
            ((parentAt new new ks).get "capacityPerReplica") v
      · exact .inl (.inr ⟨hcarried.1, hnone, hcarried.2⟩)
      · exact .inr (.carried htext hnone x y hx hy hxy
          fun hpath hexact => hcarried ⟨hpath, hexact⟩)
    · by_cases hsame : v.same (new.readAt ks) = true
      · exact .inl (.inl hsame)
      · exact .inr (.boolean hleaf heq hsame)
  · cases v with
    | dict members => exact .inl h
    | _ => exact absurd rfl hleaf

/-- What the check accepts is migrated exactly when it misreads nothing. -/
theorem Accepted.migrated_iff {entry : Entry} {new : Obj}
    (h : Accepted decimal entry new) :
    Migrated decimal entry new ↔ ¬LooselyKept decimal entry new := by
  obtain ⟨hprovenance, ⟨target, htarget, hnsEq, hnameEq⟩, hkept⟩ := h
  constructor
  · rintro hmigrated (⟨target, htarget, hdiffers⟩ | ⟨ks, v, hv, hreq, hmis⟩)
    · obtain ⟨other, hother, hns, hname⟩ := hmigrated.target
      obtain rfl := Except.ok.inj (htarget.symm.trans hother)
      exact hdiffers.elim (·.2 hns) (·.2 hname)
    · rcases hmigrated.spec ks v hv with ⟨pre, hpre, hexempt⟩ | hjudge
      · exact hreq pre hpre hexempt
      · exact hmis.not_judge decimal hjudge
  · intro hstrict
    refine ⟨hprovenance, ⟨target, htarget, ?_, ?_⟩, fun ks v hv => ?_⟩
    · by_contra hdiffers
      exact hstrict (.inl ⟨target, htarget, .inl ⟨hnsEq, hdiffers⟩⟩)
    · by_contra hdiffers
      exact hstrict (.inl ⟨target, htarget, .inr ⟨hnameEq, hdiffers⟩⟩)
    · by_contra hlost
      obtain ⟨hexempt, hjudge⟩ := not_or.mp hlost
      refine hstrict (.inr ⟨ks, v, hv,
        fun pre hpre hex => hexempt ⟨pre, hpre, hex⟩, ?_⟩)
      rcases hkept ks v hv with ⟨pre, hpre, htext⟩ | hcheck
      · exact .dotted pre hpre htext hjudge
      · exact (judge_or_misread decimal hcheck).resolve_left hjudge

/-- Where the check's readings are the strict ones it misreads nothing. -/
theorem Faithful.not_looselyKept {entry : Entry} {new : Obj}
    (hfaithful : Faithful decimal entry new) :
    ¬LooselyKept decimal entry new := by
  rintro (⟨target, htarget, hdiffers⟩ | ⟨ks, v, hv, hreq, hmis⟩)
  · obtain ⟨hns, hname⟩ := hfaithful.target target htarget
    exact hdiffers.elim (fun h => h.2 (hns h.1)) fun h => h.2 (hname h.1)
  · cases hmis with
    | dotted pre hpre htext hdiffers =>
        obtain ⟨u, hu⟩ := at?_prefix hpre hv
        refine hreq pre hpre ?_
        rcases exempt_eq_true htext with htext | htext
        · exact .inl (hfaithful.paths pre u hu _ (by simp [specialPaths]) htext)
        · exact .inr (hfaithful.paths pre u hu _ (by simp [specialPaths]) htext)
    | boolean hleaf heq hsame => exact hsame (hfaithful.values ks v hv heq)
    | carried htext hnone x y hx hy hxy honly =>
        have hpath := hfaithful.paths ks v hv
          ["metrics", "requests", "targetRPS"] (by simp [specialPaths]) htext
        subst hpath
        exact honly rfl (hfaithful.quantities v hv x y hx hy hxy)

/-- A value as the server keeps it: members that are absent may be added to a
`dict` at any depth, and what is set keeps its value. -/
inductive Defaulted : Value → Value → Prop
  | leaf (v : Value) (h : v.isDict = false) : Defaulted v v
  | dict (members members' : List (String × Value))
      (h : ∀ k v, members.lookup k = some v →
        Defaulted v ((Value.dict members').get k)) :
      Defaulted (.dict members) (.dict members')

/-- A created object as it is read later.  The schema gives the target's name
no default and bounds the capacity. -/
structure Served (created : NewObject) (live : Obj) : Prop where
  nameSpace : created.nameSpace = .str live.metadata.nameSpace
  annotations : ∀ k v, created.annotations.lookup k = some v →
    live.metadata.annotations.lookup k = some v
  spec : Defaulted (.dict created.spec) live.spec.value
  targetName : live.spec.value.at? ["targetDeployment", "name"] =
    (Value.dict created.spec).at? ["targetDeployment", "name"]
  capacity : ∀ ks, ∃ q, quantity decimal
    ((live.spec.value.readAt ks).get "capacityPerReplica") = .ok q

theorem Defaulted.isDict {v nv : Value} (h : Defaulted v nv) :
    nv.isDict = v.isDict := by
  cases h <;> rfl

/-- What is kept with defaults has no difference. -/
theorem keeps_of_defaulted {v nv : Value} (h : Defaulted v nv)
    (hjson : v.IsJson) {ks : List String} {parent : Value}
    (hparent : ∃ q, quantity decimal (parent.get "capacityPerReplica") =
      .ok q)
    (hbelow : ∀ rel, ∃ q, quantity decimal
      ((nv.readAt rel).get "capacityPerReplica") = .ok q) :
    Keeps (checkReading decimal) ks parent nv v := by
  induction h generalizing ks parent with
  | leaf v hleaf =>
      have hcarried : ∃ b, carried decimal (textOf ks) parent v v = .ok b := by
        obtain ⟨q, hq⟩ := hparent
        unfold carried
        split
        · rename_i hwhere
          rw [hq]
          cases v with
          | none => cases q <;> exact ⟨false, rfl⟩
          | _ => exact absurd hwhere.2.1 nofun
        · exact ⟨false, rfl⟩
      obtain ⟨b, hb⟩ := hcarried
      have hself : (checkReading decimal).leaf ks parent v v :=
        ⟨b, hb, .inr (Value.eq_self v hjson)⟩
      refine keeps_iff.mpr (.inr ⟨?_, fun k u hu => ?_⟩)
      · cases v with
        | dict members => cases hleaf
        | _ => exact hself
      · rw [at?_leaf hleaf] at hu
        cases hu
  | dict members members' hmembers ih =>
      refine keeps_iff.mpr (.inr ⟨rfl, fun k u hu => ?_⟩)
      rw [at?_dict] at hu
      exact ih k u hu (Value.membersIsJson_iff.mp hjson.2 (k, u)
        (Value.mem_of_lookup hu)) (hbelow []) fun rel => hbelow (k :: rel)

theorem lookup_setMember {α : Type} (k k' : String) (v : α)
    (members : List (String × α)) :
    (setMember k v members).lookup k' =
      if k' = k then some v else members.lookup k' := by
  induction members with
  | nil =>
      rw [setMember, List.lookup_cons]
      by_cases hk : k' = k
      · rw [if_pos hk, hk, beq_self_eq_true]
      · rw [if_neg hk, beq_eq_false_iff_ne.mpr hk]
  | cons m rest ih =>
      obtain ⟨key, w⟩ := m
      rw [setMember]
      by_cases hkey : key = k
      · subst hkey
        rw [if_pos rfl, List.lookup_cons, List.lookup_cons]
        by_cases hk : k' = key
        · rw [if_pos hk, hk, beq_self_eq_true]
        · rw [if_neg hk, beq_eq_false_iff_ne.mpr hk]
      · rw [if_neg hkey, List.lookup_cons, List.lookup_cons, ih]
        by_cases hk : k' = key
        · rw [hk, if_neg hkey, if_neg hkey, beq_self_eq_true]
        · rw [beq_eq_false_iff_ne.mpr hk]

theorem get_eq_of_lookup {members : List (String × Value)} {k : String}
    {v : Value} (h : members.lookup k = some v) :
    (Value.dict members).get k = v :=
  congrArg (fun o : Option Value => o.getD .none) h

/-- The target of a replacement's spec is that of the legacy spec. -/
theorem replacementSpec_eq_ok {spec created : List (String × Value)}
    {tns : Value} (h : replacementSpec spec tns = .ok created) :
    ∃ td, (spec.lookup "targetDeployment").getD (.dict []) = .dict td ∧
      created = setMember "targetDeployment"
        (.dict (setMember "namespace" tns td))
        (setMember "mode" (.str "Recommend") spec) := by
  unfold replacementSpec at h
  dsimp only at h
  have hlookup := lookup_setMember "mode" "targetDeployment"
    (Value.str "Recommend") spec
  rw [if_neg (by decide)] at hlookup
  rw [hlookup] at h
  split at h
  · rename_i td htd
    exact ⟨td, htd, (Except.ok.inj h).symm⟩
  · cases h

/-- The parts of a created object. -/
theorem replacementFor_eq_ok {legacy : Obj} {name : String}
    {created : NewObject} (h : replacementFor legacy name = .ok created) :
    ∃ target, targetOf legacy = .ok target ∧
      created.nameSpace = target.1 ∧
      replacementSpec legacy.spec.list target.1 = .ok created.spec ∧
      created.annotations.lookup migratedFrom = some legacy.ref ∧
      created.annotations.lookup migratedFromUid =
        some legacy.metadata.uid := by
  unfold replacementFor at h
  cases htarget : targetOf legacy with
  | error e =>
      rw [htarget] at h
      cases h
  | ok target =>
      rw [htarget] at h
      cases hspec : replacementSpec legacy.spec.list target.1 with
      | error e =>
          simp only [bind, Except.bind, hspec] at h
          cases h
      | ok spec =>
          simp only [bind, Except.bind, hspec] at h
          cases h
          refine ⟨target, rfl, rfl, hspec, ?_, ?_⟩
          · dsimp only
            rw [lookup_setMember, if_neg (by decide), lookup_setMember,
              if_pos rfl]
          · dsimp only
            rw [lookup_setMember, if_pos rfl]

theorem planEntry_eq_ok {legacy : Obj} {name : String} {entry : Entry}
    (h : planEntry legacy name = .ok entry) :
    ∃ tns, targetOf legacy = .ok (.str tns, entry.target.2) ∧
      entry.target.1 = .str tns ∧ entry.source.ref = legacy.ref ∧
      entry.source.uid = legacy.metadata.uid ∧
      entry.source.spec = legacy.spec := by
  unfold planEntry at h
  cases htarget : targetOf legacy with
  | error e =>
      rw [htarget] at h
      cases h
  | ok target =>
      obtain ⟨ns, tname⟩ := target
      rw [htarget] at h
      cases ns with
      | str tns =>
          cases h
          exact ⟨tns, rfl, rfl, rfl, rfl, rfl⟩
      | _ => cases h

theorem Defaulted.get {members : List (String × Value)} {nv : Value}
    (h : Defaulted (.dict members) nv) {k : String} {v : Value}
    (hlookup : members.lookup k = some v) : Defaulted v (nv.get k) := by
  cases h with
  | leaf _ hleaf => cases hleaf
  | dict _ members' hmembers => exact hmembers k v hlookup

theorem Defaulted.exists_dict {members : List (String × Value)} {nv : Value}
    (h : Defaulted (.dict members) nv) : ∃ members', nv = .dict members' := by
  cases h with
  | leaf _ hleaf => cases hleaf
  | dict _ members' _ => exact ⟨members', rfl⟩

theorem Defaulted.text {s : String} {nv : Value} (h : Defaulted (.str s) nv) :
    nv = .str s := by
  cases h
  rfl

theorem orEmpty_dict (members : List (String × Value)) :
    orEmpty (.dict members) = .ok members := by
  cases members <;> rfl

theorem targetOf_eq {o : Obj} {td : List (String × Value)}
    (h : orEmpty (o.spec.value.get "targetDeployment") = .ok td) :
    targetOf o = .ok
      (if ((Value.dict td).get "namespace").truthy then
        (Value.dict td).get "namespace" else .str o.metadata.nameSpace,
      (td.lookup "name").getD (.str "")) := by
  unfold targetOf
  rw [h]
  rfl

theorem lookup_of_get {members : List (String × Value)} {k : String}
    {v : Value} (h : (Value.dict members).get k = v) (hdict : v.isDict = true) :
    members.lookup k = some v := by
  change (members.lookup k).getD .none = v at h
  cases hlookup : members.lookup k with
  | none =>
      rw [hlookup] at h
      rw [← h] at hdict
      cases hdict
  | some w =>
      rw [hlookup] at h
      exact congrArg some h

/-- The target that is read from a served replacement. -/
theorem targetOf_served {legacy live : Obj} {name : String}
    {created : NewObject} {tns : String} {tname : Value}
    (htarget : targetOf legacy = .ok (.str tns, tname))
    (hcreated : replacementFor legacy name = .ok created)
    (hserved : Served decimal created live) :
    targetOf live = .ok (.str tns, tname) := by
  obtain ⟨target, htarget', hns, hspec, -, -⟩ := replacementFor_eq_ok hcreated
  obtain rfl := Except.ok.inj (htarget.symm.trans htarget')
  obtain ⟨td, htd, hcreatedSpec⟩ := replacementSpec_eq_ok hspec
  have hlegacy : orEmpty (legacy.spec.value.get "targetDeployment") =
      .ok td := by
    cases hlookup : legacy.spec.list.lookup "targetDeployment" with
    | none =>
        rw [hlookup] at htd
        cases htd
        change orEmpty ((legacy.spec.list.lookup _).getD .none) = _
        rw [hlookup]
        rfl
    | some v =>
        rw [hlookup] at htd
        rw [Members.value, get_eq_of_lookup hlookup,
          show v = .dict td from htd, orEmpty_dict]
  rw [targetOf_eq hlegacy] at htarget
  obtain ⟨-, hname⟩ := Prod.mk.inj (Except.ok.inj htarget)
  have hsection : created.spec.lookup "targetDeployment" =
      some (.dict (setMember "namespace" (.str tns) td)) := by
    rw [hcreatedSpec, lookup_setMember, if_pos rfl]
  have hserved' := hserved.spec.get hsection
  obtain ⟨td', htd'⟩ := hserved'.exists_dict
  have hnamespace : (Value.dict td').get "namespace" = .str tns := by
    rw [← htd']
    refine (hserved'.get ?_).text
    rw [lookup_setMember, if_pos rfl]
  have hlive : orEmpty (live.spec.value.get "targetDeployment") = .ok td' := by
    rw [htd', orEmpty_dict]
  have hlookupName : td'.lookup "name" = td.lookup "name" := by
    have hat := hserved.targetName
    rw [at?_cons, at?_cons (.dict created.spec), at?_dict, hsection] at hat
    have hset : live.spec.value.at? ["targetDeployment"] =
        some (.dict td') := by
      rw [Members.value, at?_dict]
      exact lookup_of_get htd' rfl
    rw [hset] at hat
    change (Value.dict td').at? ["name"] = (Value.dict _).at? ["name"] at hat
    rw [at?_dict, at?_dict, lookup_setMember, if_neg (by decide)] at hat
    exact hat
  rw [targetOf_eq hlive, hnamespace, hlookupName, hname]
  by_cases htruthy : (Value.str tns).truthy = true
  · rw [if_pos htruthy]
  · rw [if_neg htruthy, ← hserved.nameSpace, hns]

theorem lookup_json {members : List (String × Value)}
    (h : (Value.dict members).IsJson) {k : String} {v : Value}
    (hv : members.lookup k = some v) : v.IsJson :=
  Value.membersIsJson_iff.mp h.2 _ (Value.mem_of_lookup hv)

theorem targetOf_json {o : Obj} {target : Value × Value}
    (h : targetOf o = .ok target) : target.2.IsJson := by
  have hsection : (o.spec.value.get "targetDeployment").IsJson := by
    change ((o.spec.list.lookup "targetDeployment").getD .none).IsJson
    cases hlookup : o.spec.list.lookup "targetDeployment" with
    | none => exact trivial
    | some v => exact lookup_json o.spec.json hlookup
  have hmembers : ∀ {td}, orEmpty (o.spec.value.get "targetDeployment") =
      .ok td → (Value.dict td).IsJson := by
    intro td htd
    unfold orEmpty at htd
    split at htd
    · split at htd
      · rename_i members hdict
        rw [← Except.ok.inj htd, ← hdict]
        exact hsection
      · cases htd
    · cases htd
      exact ⟨List.nodup_nil, trivial⟩
  cases htd : orEmpty (o.spec.value.get "targetDeployment") with
  | error e =>
      unfold targetOf at h
      rw [htd] at h
      cases h
  | ok td =>
      rw [targetOf_eq htd] at h
      rw [← Except.ok.inj h]
      dsimp only
      cases hname : td.lookup "name" with
      | none => exact trivial
      | some v => exact lookup_json (hmembers htd) hname

/-- Every path of the legacy spec is kept in a served replacement. -/
theorem kept_served {legacy live : Obj} {name : String} {created : NewObject}
    (hcreated : replacementFor legacy name = .ok created)
    (hserved : Served decimal created live) :
    Kept (checkReading decimal) legacy.spec.value live.spec.value := by
  obtain ⟨target, -, -, hspec, -, -⟩ := replacementFor_eq_ok hcreated
  obtain ⟨td, htd, hcreatedSpec⟩ := replacementSpec_eq_ok hspec
  have hkeeps : ∀ {k u}, created.spec.lookup k = some u → u.IsJson →
      Keeps (checkReading decimal) [k] live.spec.value
        (live.spec.value.get k) u := fun {k u} hu hjson =>
    keeps_of_defaulted decimal (hserved.spec.get hu) hjson
      (hserved.capacity []) fun rel => hserved.capacity (k :: rel)
  refine keeps_iff.mpr (.inr ⟨rfl, fun k u hu => ?_⟩)
  rw [Members.value, at?_dict] at hu
  have hjson := lookup_json legacy.spec.json hu
  by_cases hmode : k = "mode"
  · subst hmode
    have hexempt : exempt (textOf ["mode"]) = true := by decide
    exact keeps_iff.mpr (.inl hexempt)
  by_cases htarget : k = "targetDeployment"
  · subst htarget
    rw [hu] at htd
    obtain rfl : u = .dict td := htd
    have hsection : created.spec.lookup "targetDeployment" =
        some (.dict (setMember "namespace" target.1 td)) := by
      rw [hcreatedSpec, lookup_setMember, if_pos rfl]
    have hserved' := hserved.spec.get hsection
    refine keeps_iff.mpr (.inr ⟨hserved'.isDict, fun k' u' hu' => ?_⟩)
    rw [at?_dict] at hu'
    by_cases hns : k' = "namespace"
    · subst hns
      have hexempt : exempt (textOf ["targetDeployment", "namespace"]) =
          true := by decide
      exact keeps_iff.mpr (.inl hexempt)
    · have hkept : (setMember "namespace" target.1 td).lookup k' =
          some u' := by rw [lookup_setMember, if_neg hns, hu']
      exact keeps_of_defaulted decimal (hserved'.get hkept)
        (lookup_json hjson hu') (hserved.capacity ["targetDeployment"])
        fun rel => hserved.capacity ("targetDeployment" :: k' :: rel)
  · refine hkeeps ?_ hjson
    rw [hcreatedSpec, lookup_setMember, if_neg htarget, lookup_setMember,
      if_neg hmode, hu]

/-- What is created for a recorded autoscaler has no problems once it is
served. -/
theorem served_accepted {legacy live : Obj} {name : String} {entry : Entry}
    {created : NewObject} (hentry : planEntry legacy name = .ok entry)
    (hcreated : replacementFor legacy name = .ok created)
    (hserved : Served decimal created live) :
    Accepted decimal entry live := by
  obtain ⟨tns, htarget, hns, href, huid, hspec⟩ := planEntry_eq_ok hentry
  obtain ⟨-, -, -, -, hfrom, hfromUid⟩ := replacementFor_eq_ok hcreated
  refine ⟨?_, ⟨_, targetOf_served decimal htarget hcreated hserved, ?_, ?_⟩,
    ?_⟩
  · unfold provenance
    rw [hserved.annotations _ _ hfrom, hserved.annotations _ _ hfromUid, href,
      huid]
  · rw [hns]
    exact Value.eq_self (.str tns) trivial
  · exact Value.eq_self _ (targetOf_json htarget)
  · rw [hspec]
    exact kept_served decimal hcreated hserved

/-- The check of a replacement.  What is created for a recorded autoscaler
passes once it is served; the check passes exactly with what it asks for; what
passes is migrated unless the check misreads something that it accepts; and it
misreads nothing where its readings are the strict ones. -/
structure ReplacementCheck : Prop where
  complete : ∀ legacy name entry created live,
    planEntry legacy name = .ok entry →
    replacementFor legacy name = .ok created → Served decimal created live →
    identityProblems decimal live entry = .ok []
  passes : ∀ entry live, identityProblems decimal live entry = .ok [] ↔
    Accepted decimal entry live
  sound : ∀ entry live, (identityProblems decimal live entry = .ok [] →
    Migrated decimal entry live) ↔
      ¬(Accepted decimal entry live ∧ LooselyKept decimal entry live)
  faithful : ∀ entry live, Faithful decimal entry live →
    identityProblems decimal live entry = .ok [] →
    Migrated decimal entry live

theorem replacement_check : ReplacementCheck decimal where
  complete _ _ _ _ _ hentry hcreated hserved :=
    (identityProblems_eq_nil decimal _ _).mpr
      (served_accepted decimal hentry hcreated hserved)
  passes := identityProblems_eq_nil decimal
  sound entry live := by
    rw [identityProblems_eq_nil, not_and]
    exact forall_congr' fun h => h.migrated_iff decimal
  faithful entry live hfaithful h := by
    have haccepted := (identityProblems_eq_nil decimal entry live).mp h
    exact (haccepted.migrated_iff decimal).mpr
      (hfaithful.not_looselyKept decimal)

end Check

namespace RoundedCapacity

def capacityText : String := "12.0000000000000000000000000000001"

/-- The constructor on the one text that is read. -/
def decimal (s : String) : Option Decimal :=
  if s = capacityText then some (.finite (12 + 1 / 10 ^ 31)) else none

def target : Value :=
  .dict [("name", .str "web"), ("namespace", .str "shop")]

def source : Source where
  nameSpace := "shop"
  name := "web-pa"
  uid := "u-1"
  generation := some 1
  spec := ⟨[("targetDeployment", target), ("metrics",
      .dict [("requests", .dict [("targetRPS", .int 12)])])], by
    simp [target, Value.IsJson, Value.membersIsJson]⟩

def entry : Entry := ⟨source, ("shop", "web-pa"), (.str "shop", .str "web")⟩

/-- The capacity is a little more than the recorded 12 requests per second. -/
def live : Obj where
  metadata :=
    { nameSpace := "shop"
      name := "web-pa"
      uid := "u-2"
      annotations :=
        [(migratedFrom, "shop/web-pa"), (migratedFromUid, "u-1")] }
  spec := ⟨[("targetDeployment", target), ("mode", .str "Recommend"),
      ("metrics", .dict [("requests",
        .dict [("capacityPerReplica", .str capacityText)])])], by
    simp [target, Value.IsJson, Value.membersIsJson]⟩

/-- The product is rounded to 28 digits, so the check passes. -/
theorem accepted_not_migrated :
    identityProblems decimal live entry = .ok [] ∧
      ¬Migrated decimal entry live := by
  refine ⟨by decide +kernel, fun h => ?_⟩
  have hset : entry.source.spec.value.at?
      ["metrics", "requests", "targetRPS"] = some (.int 12) := by rfl
  rcases h.spec _ _ hset with ⟨pre, hpre, hexempt⟩ | hjudge
  · rcases hexempt with rfl | rfl <;> exact absurd hpre (by decide)
  · rcases hjudge with hsame | ⟨-, -, x, y, hx, hy, hxy⟩
    · exact absurd hsame (by decide)
    · have hcapacity : exactQuantity decimal (.str capacityText) =
          some (.finite (12 + 1 / 10 ^ 31)) := by decide +kernel
      have hx' : x = .finite (12 + 1 / 10 ^ 31) :=
        Option.some.inj (hx.symm.trans hcapacity)
      have hy' : y = .finite 12 := (Option.some.inj hy).symm
      rw [hx', hy'] at hxy
      exact absurd hxy (by decide +kernel)

end RoundedCapacity

namespace ServedReplacement

open RoundedCapacity (source target entry)

def legacy : Obj where
  metadata :=
    { nameSpace := "shop", name := "web-pa", uid := "u-1", generation := some 1 }
  spec := source.spec

def created : NewObject where
  nameSpace := .str "shop"
  name := "web-pa"
  labels := []
  annotations := [(migratedFrom, "shop/web-pa"), (migratedFromUid, "u-1")]
  spec := [("targetDeployment", target),
    ("metrics", .dict [("requests", .dict [("targetRPS", .int 12)])]),
    ("mode", .str "Recommend")]

/-- The created object once it is served: a default is filled in. -/
def live : Obj where
  metadata :=
    { nameSpace := "shop"
      name := "web-pa"
      uid := "u-2"
      annotations :=
        [(migratedFrom, "shop/web-pa"), (migratedFromUid, "u-1")] }
  spec := ⟨[("targetDeployment", target), ("metrics", .dict [("requests",
      .dict [("enabled", .bool false), ("targetRPS", .int 12)])]),
      ("mode", .str "Recommend")], by
    simp [target, Value.IsJson, Value.membersIsJson]⟩

/-- No text is read as a number here. -/
def decimal (_ : String) : Option Decimal := none

theorem quantity_decimal (v : Value) : ∃ q, quantity decimal v = .ok q := by
  cases v <;> exact ⟨_, rfl⟩

theorem defaulted_of_members {members members' : List (String × Value)}
    (h : ∀ m ∈ members, Defaulted m.2 ((Value.dict members').get m.1)) :
    Defaulted (.dict members) (.dict members') :=
  .dict _ _ fun k v hv => h (k, v) (Value.mem_of_lookup hv)

theorem defaulted_self {members : List (String × Value)}
    (h : ∀ m ∈ members, (Value.dict members).get m.1 = m.2 ∧
      m.2.isDict = false) : Defaulted (.dict members) (.dict members) := by
  refine defaulted_of_members fun m hm => ?_
  rw [(h m hm).1]
  exact .leaf m.2 (h m hm).2

theorem served : Served decimal created live where
  nameSpace := rfl
  annotations _ _ h := h
  spec := by
    refine defaulted_of_members ?_
    simp only [created, List.forall_mem_cons, List.not_mem_nil,
      IsEmpty.forall_iff, implies_true, and_true]
    refine ⟨defaulted_self ?_, ?_, .leaf _ rfl⟩
    · simp [Value.get, List.lookup_cons, Value.isDict]
    · refine defaulted_of_members (List.forall_mem_singleton.mpr ?_)
      exact defaulted_of_members
        (List.forall_mem_singleton.mpr (.leaf (.int 12) rfl))
  targetName := rfl
  capacity _ := quantity_decimal _

/-- What was created for the legacy autoscaler passes once it is served. -/
theorem served_replacement_passes :
    planEntry legacy "web-pa" = .ok entry ∧
      replacementFor legacy "web-pa" = .ok created ∧
      Served decimal created live ∧
      identityProblems decimal live entry = .ok [] :=
  ⟨rfl, rfl, served,
    (replacement_check decimal).complete legacy "web-pa" entry created live rfl
      rfl served⟩

end ServedReplacement

end PredictiveAutoscaler.Migration
