/-!
# Ordered maps

Finite maps that remember the order in which their keys first arrived. Giving a key a new
value keeps its place.
-/

namespace BrokerBridge

/-- Give `k` the value `v`: in place when the key is present, at the end when it is new. -/
def upsert {κ α : Type} [DecidableEq κ] (k : κ) (v : α) : List (κ × α) → List (κ × α)
  | [] => [(k, v)]
  | e :: rest => if e.1 = k then (k, v) :: rest else e :: upsert k v rest

section Upsert

variable {κ α : Type} [DecidableEq κ]

theorem mem_keys_upsert {k : κ} {v : α} {l : List (κ × α)} {x : κ} :
    x ∈ (upsert k v l).map Prod.fst ↔ x = k ∨ x ∈ l.map Prod.fst := by
  induction l with
  | nil => simp [upsert]
  | cons e rest ih =>
      by_cases h : e.1 = k
      · simp [upsert, h]
      · simp only [upsert, h, if_false, List.map_cons, List.mem_cons, ih]
        grind

theorem nodup_keys_upsert {k : κ} {v : α} {l : List (κ × α)}
    (h : (l.map Prod.fst).Nodup) : ((upsert k v l).map Prod.fst).Nodup := by
  induction l with
  | nil => simp [upsert]
  | cons e rest ih =>
      simp only [List.map_cons, List.nodup_cons] at h
      by_cases hk : e.1 = k
      · subst hk
        simpa [upsert] using h
      · simp only [upsert, hk, if_false, List.map_cons, List.nodup_cons, mem_keys_upsert]
        exact ⟨by simpa using h.1, ih h.2⟩

theorem upsert_of_notMem {k : κ} {v : α} {l : List (κ × α)} (h : k ∉ l.map Prod.fst) :
    upsert k v l = l ++ [(k, v)] := by
  induction l with
  | nil => rfl
  | cons e rest ih =>
      simp only [List.map_cons, List.mem_cons, not_or] at h
      have hk : e.1 ≠ k := fun he => h.1 he.symm
      simp [upsert, hk, ih h.2]

theorem lookup_upsert {k x : κ} {v : α} {l : List (κ × α)} :
    (upsert k v l).lookup x = if x = k then some v else l.lookup x := by
  induction l with
  | nil =>
      by_cases h : x = k
      · simp [upsert, h]
      · have hb : (x == k) = false := beq_eq_false_iff_ne.mpr h
        simp [upsert, List.lookup_cons, h, hb]
  | cons e rest ih =>
      obtain ⟨k', v'⟩ := e
      by_cases hk : k' = k
      · subst hk
        by_cases h : x = k'
        · simp [upsert, h]
        · have hb : (x == k') = false := beq_eq_false_iff_ne.mpr h
          simp [upsert, List.lookup_cons, h, hb]
      · by_cases h : x = k'
        · subst h
          simp [upsert, hk]
        · have hb : (x == k') = false := beq_eq_false_iff_ne.mpr h
          simp [upsert, hk, List.lookup_cons, hb, ih]

theorem lookup_of_mem {k : κ} {v : α} {l : List (κ × α)} (hnodup : (l.map Prod.fst).Nodup)
    (h : (k, v) ∈ l) : l.lookup k = some v := by
  induction l with
  | nil => cases h
  | cons e rest ih =>
      obtain ⟨k', v'⟩ := e
      obtain ⟨hnew, hrest⟩ := List.nodup_cons.mp hnodup
      rcases List.mem_cons.mp h with hfirst | hlater
      · cases hfirst
        exact List.lookup_cons_self
      · have hkey : k ∈ rest.map Prod.fst := List.mem_map.mpr ⟨_, hlater, rfl⟩
        have hk : k ≠ k' := fun he => hnew (he ▸ hkey)
        have hb : (k == k') = false := beq_eq_false_iff_ne.mpr hk
        rw [List.lookup_cons, hb]
        exact ih hrest hlater

/-- Keys that are all new keep the order in which they arrive. -/
theorem foldl_upsert_of_nodup {l₀ l : List (κ × α)}
    (hkeys : (l₀.map Prod.fst ++ l.map Prod.fst).Nodup) :
    l.foldl (fun m e => upsert e.1 e.2 m) l₀ = l₀ ++ l := by
  induction l generalizing l₀ with
  | nil => exact (List.append_nil _).symm
  | cons e rest ih =>
      have hnew : e.1 ∉ l₀.map Prod.fst := fun hmem =>
        (List.nodup_append.mp hkeys).2.2 e.1 hmem e.1 List.mem_cons_self rfl
      have hkeys' : ((l₀ ++ [e]).map Prod.fst ++ rest.map Prod.fst).Nodup := by
        simpa using hkeys
      rw [List.foldl_cons, upsert_of_notMem hnew, ih hkeys', List.append_assoc]
      rfl

end Upsert

structure OrderedMap (κ α : Type) [DecidableEq κ] where
  entries : List (κ × α)
  nodup_keys : (entries.map Prod.fst).Nodup

namespace OrderedMap

variable {κ α : Type} [DecidableEq κ]

@[ext] theorem ext {m n : OrderedMap κ α} (h : m.entries = n.entries) : m = n := by
  cases m; cases n; simp_all

def empty : OrderedMap κ α := ⟨[], by simp⟩

instance : Inhabited (OrderedMap κ α) := ⟨empty⟩

def insert (m : OrderedMap κ α) (k : κ) (v : α) : OrderedMap κ α :=
  ⟨upsert k v m.entries, nodup_keys_upsert m.nodup_keys⟩

def get? (m : OrderedMap κ α) (k : κ) : Option α := m.entries.lookup k

def keys (m : OrderedMap κ α) : List κ := m.entries.map Prod.fst

def size (m : OrderedMap κ α) : Nat := m.entries.length

def isEmpty (m : OrderedMap κ α) : Bool := m.entries.isEmpty

/-- Later entries of a repeated key win and the first one gives the place. -/
def ofList (l : List (κ × α)) : OrderedMap κ α :=
  l.foldl (fun m e => m.insert e.1 e.2) empty

@[simp] theorem entries_empty : (empty : OrderedMap κ α).entries = [] := rfl

@[simp] theorem entries_insert (m : OrderedMap κ α) (k : κ) (v : α) :
    (m.insert k v).entries = upsert k v m.entries := rfl

theorem get?_insert (m : OrderedMap κ α) (k x : κ) (v : α) :
    (m.insert k v).get? x = if x = k then some v else m.get? x :=
  lookup_upsert

theorem get?_of_mem {m : OrderedMap κ α} {k : κ} {v : α} (h : (k, v) ∈ m.entries) :
    m.get? k = some v :=
  lookup_of_mem m.nodup_keys h

theorem entries_foldl_insert (m : OrderedMap κ α) (l : List (κ × α)) :
    (l.foldl (fun m e => m.insert e.1 e.2) m).entries =
      l.foldl (fun m e => upsert e.1 e.2 m) m.entries := by
  induction l generalizing m with
  | nil => rfl
  | cons e rest ih => exact ih _

/-- A map is made of its entries. -/
theorem ofList_entries (m : OrderedMap κ α) : ofList m.entries = m := by
  have hkeys : (([] : List (κ × α)).map Prod.fst ++ m.entries.map Prod.fst).Nodup := m.nodup_keys
  exact ext ((entries_foldl_insert empty m.entries).trans (foldl_upsert_of_nodup hkeys))

end OrderedMap

end BrokerBridge
