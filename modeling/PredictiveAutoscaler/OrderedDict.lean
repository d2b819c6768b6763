/-
An ordered dictionary that is kept short: a key is set in its place or at the
end, moved to the end when it is used, and the oldest items are dropped.
-/
import Mathlib.Data.List.Basic

namespace PredictiveAutoscaler

/-- `collections.OrderedDict`: distinct keys, the oldest first. -/
abbrev OrderedDict (Key Value : Type) := List (Key × Value)

namespace OrderedDict

variable {Key Value : Type}

/-- Pop the first item while there are more than `maxEntries`. -/
def evict (maxEntries : ℕ) : OrderedDict Key Value → OrderedDict Key Value
  | [] => []
  | item :: rest =>
      if maxEntries < (item :: rest).length then evict maxEntries rest
      else item :: rest

theorem mem_of_mem_evict {maxEntries : ℕ} {d : OrderedDict Key Value}
    {item : Key × Value} (h : item ∈ d.evict maxEntries) : item ∈ d := by
  induction d with
  | nil => exact h
  | cons first rest ih =>
      unfold evict at h
      split at h
      · exact List.mem_cons_of_mem _ (ih h)
      · exact h

theorem length_evict (maxEntries : ℕ) (d : OrderedDict Key Value) :
    (d.evict maxEntries).length ≤ maxEntries := by
  induction d with
  | nil => exact Nat.zero_le _
  | cons first rest ih =>
      unfold evict
      split
      · exact ih
      · rename_i hfew
        exact Nat.not_lt.mp hfew

variable [DecidableEq Key]

def get? (d : OrderedDict Key Value) (k : Key) : Option Value :=
  (d.find? fun item => item.1 = k).map Prod.snd

def del (d : OrderedDict Key Value) (k : Key) : OrderedDict Key Value :=
  d.filter fun item => item.1 ≠ k

/-- `d[k] = v`: in its place, or at the end when the key is new. -/
def set (d : OrderedDict Key Value) (k : Key) (v : Value) :
    OrderedDict Key Value :=
  if d.any (·.1 = k) then d.map fun item => if item.1 = k then (k, v) else item
  else d ++ [(k, v)]

/-- `d.move_to_end(k)` of a key it has. -/
def moveToEnd (d : OrderedDict Key Value) (k : Key) : OrderedDict Key Value :=
  match d.get? k with
  | none => d
  | some v => d.del k ++ [(k, v)]

theorem mem_of_get? {d : OrderedDict Key Value} {k : Key} {v : Value}
    (h : d.get? k = some v) : (k, v) ∈ d := by
  obtain ⟨item, hitem, rfl⟩ := Option.map_eq_some_iff.mp h
  have hkey : item.1 = k := by simpa using List.find?_some hitem
  rw [← hkey]
  exact List.mem_of_find?_eq_some hitem

theorem mem_of_mem_del {d : OrderedDict Key Value} {k : Key}
    {item : Key × Value} (h : item ∈ d.del k) : item ∈ d :=
  List.mem_of_mem_filter h

theorem mem_of_mem_set {d : OrderedDict Key Value} {k : Key} {v : Value}
    {item : Key × Value} (h : item ∈ d.set k v) : item ∈ d ∨ item = (k, v) := by
  unfold set at h
  split at h
  · obtain ⟨old, hold, rfl⟩ := List.mem_map.mp h
    split
    · exact .inr rfl
    · exact .inl hold
  · rcases List.mem_append.mp h with hold | hnew
    · exact .inl hold
    · exact .inr (List.mem_singleton.mp hnew)

theorem mem_of_mem_moveToEnd {d : OrderedDict Key Value} {k : Key}
    {item : Key × Value} (h : item ∈ d.moveToEnd k) : item ∈ d := by
  unfold moveToEnd at h
  split at h
  · exact h
  · rename_i v hv
    rcases List.mem_append.mp h with hold | hlast
    · exact mem_of_mem_del hold
    · rw [List.mem_singleton.mp hlast]
      exact mem_of_get? hv

theorem length_moveToEnd_le (d : OrderedDict Key Value) (k : Key) :
    (d.moveToEnd k).length ≤ d.length := by
  unfold moveToEnd
  split
  · exact Nat.le_refl _
  · rename_i v hv
    have hmem := mem_of_get? hv
    have hlt : (d.del k).length < d.length :=
      List.length_filter_lt_length_iff_exists.mpr ⟨_, hmem, by simp⟩
    rw [List.length_append, List.length_singleton]
    exact hlt

end OrderedDict

end PredictiveAutoscaler
