/-
Members along paths of keys in decoded JSON, and when two values are the same
JSON: as Python's equality has it, but a boolean is no number.
-/
import PredictiveAutoscaler.PythonValue

namespace PredictiveAutoscaler

namespace Value

/-- Python's truth of a value. -/
def truthy : Value → Bool
  | .none => false
  | .bool b => b
  | .int n => n ≠ 0
  | .float x => !x.eq (.finite 0)
  | .str s => s ≠ ""
  | .list items => !items.isEmpty
  | .dict members => !members.isEmpty

def isDict : Value → Bool
  | .dict _ => true
  | _ => false

/-- `v.get(k)`; what is not a `dict` has no members. -/
def get (v : Value) (k : String) : Value :=
  match v with
  | .dict members => (members.lookup k).getD .none
  | _ => .none

/-- The value read along a path of keys; a missing member reads `None`. -/
def readAt (v : Value) : List String → Value
  | [] => v
  | k :: ks => (v.get k).readAt ks

/-- The value that is set at a path of keys. -/
def at? (v : Value) : List String → Option Value
  | [] => some v
  | k :: ks =>
      match v with
      | .dict members => (members.lookup k).bind fun w => w.at? ks
      | _ => Option.none

/-- A number that is not a boolean. -/
def plainNumber? : Value → Option PyFloat
  | .int n => some (.finite n)
  | .float x => some x
  | _ => Option.none

mutual

/-- The same JSON: numbers by what they are worth, members in any order. -/
def same : Value → Value → Bool
  | .none, .none => true
  | .bool b, .bool c => b = c
  | .str s, .str t => s = t
  | .list items, .list items' => listSame items items'
  | .dict members, .dict members' =>
      members.length = members'.length && membersSame members members'
  | v, w =>
      match v.plainNumber?, w.plainNumber? with
      | some x, some y => x.eq y
      | _, _ => false

def listSame : List Value → List Value → Bool
  | [], [] => true
  | v :: rest, w :: rest' => same v w && listSame rest rest'
  | _, _ => false

def membersSame : List (String × Value) → List (String × Value) → Bool
  | [], _ => true
  | (k, v) :: rest, members =>
      (match members.lookup k with
        | some w => same v w
        | Option.none => false) && membersSame rest members

end

mutual

/-- What JSON without duplicate names decodes to: no NaN, and the keys of
every `dict` are distinct. -/
def IsJson : Value → Prop
  | .float x => x ≠ .nan
  | .list items => listIsJson items
  | .dict members => (members.map Prod.fst).Nodup ∧ membersIsJson members
  | _ => True

def listIsJson : List Value → Prop
  | [] => True
  | v :: rest => IsJson v ∧ listIsJson rest

def membersIsJson : List (String × Value) → Prop
  | [] => True
  | (_, v) :: rest => IsJson v ∧ membersIsJson rest

end

theorem membersIsJson_iff {members : List (String × Value)} :
    membersIsJson members ↔ ∀ m ∈ members, IsJson m.2 := by
  induction members with
  | nil => exact iff_of_true trivial fun m hm => absurd hm List.not_mem_nil
  | cons m rest ih =>
      rw [List.forall_mem_cons, ← ih]
      exact Iff.rfl

/-- A member of a `dict` with distinct keys is found under its key. -/
theorem lookup_of_mem {members : List (String × Value)}
    (h : (members.map Prod.fst).Nodup) {k : String} {v : Value}
    (hmem : (k, v) ∈ members) : members.lookup k = some v := by
  induction members with
  | nil => exact absurd hmem List.not_mem_nil
  | cons m rest ih =>
      obtain ⟨k', v'⟩ := m
      rw [List.map_cons, List.nodup_cons] at h
      rw [List.lookup_cons]
      rcases List.mem_cons.mp hmem with heq | hrest
      · cases heq
        rw [beq_self_eq_true]
      · have hne : k ≠ k' := by
          rintro rfl
          exact h.1 (List.mem_map.mpr ⟨(k, v), hrest, rfl⟩)
        rw [beq_eq_false_iff_ne.mpr hne]
        exact ih h.2 hrest

theorem mem_of_lookup {members : List (String × Value)} {k : String}
    {v : Value} (h : members.lookup k = some v) : (k, v) ∈ members := by
  induction members with
  | nil => cases h
  | cons m rest ih =>
      obtain ⟨k', v'⟩ := m
      rw [List.lookup_cons] at h
      by_cases hk : k = k'
      · subst hk
        rw [beq_self_eq_true] at h
        cases h
        exact List.mem_cons_self
      · rw [beq_eq_false_iff_ne.mpr hk] at h
        exact List.mem_cons_of_mem _ (ih h)

theorem pyFloat_eq_self {x : PyFloat} (h : x ≠ .nan) : x.eq x = true := by
  cases x with
  | finite q => simp [PyFloat.eq, PyFloat.le]
  | infinite negative => cases negative <;> rfl
  | nan => exact absurd rfl h

mutual

/-- A decoded value equals itself. -/
theorem eq_self : ∀ v : Value, IsJson v → eq v v = true
  | .none, _ => rfl
  | .bool b, _ => by cases b <;> rfl
  | .int n, _ => by
      simp [eq, number?, pyFloat_eq_self]
  | .float x, h => by
      simp [eq, number?, pyFloat_eq_self h]
  | .str s, _ => by simp [eq]
  | .list items, h => listEq_self items h
  | .dict members, h => by
      have hmembers := membersIn_self members members
        (fun k v hv => lookup_of_mem h.1 hv) h.2
      simp [eq, hmembers]

theorem listEq_self : ∀ items : List Value, listIsJson items →
    listEq items items = true
  | [], _ => rfl
  | v :: rest, h => by
      simp [listEq, eq_self v h.1, listEq_self rest h.2]

theorem membersIn_self : ∀ members all : List (String × Value),
    (∀ k v, (k, v) ∈ members → all.lookup k = some v) →
    membersIsJson members → membersIn members all = true
  | [], _, _, _ => rfl
  | (k, v) :: rest, all, hall, h => by
      have hrest := membersIn_self rest all
        (fun k' v' hv => hall k' v' (List.mem_cons_of_mem _ hv)) h.2
      simp [membersIn, hall k v List.mem_cons_self, eq_self v h.1, hrest]

end

end Value

end PredictiveAutoscaler
