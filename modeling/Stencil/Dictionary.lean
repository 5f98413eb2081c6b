/-!
# Association lists in the order of first insertion

A dictionary is a list of pairs with pairwise different keys. Writing to a key that is present keeps
its place, writing to a new key puts it at the end, so the order of the list is the order in which
keys were first bound. `List.lookup` reads; the laws below say what each write does to it.
-/

namespace Stencil.Dictionary

variable {κ α : Type} [BEq κ]

/-- Binds `k` to `v`, in the place `k` has already or else at the end. -/
def insert (k : κ) (v : α) : List (κ × α) → List (κ × α)
  | [] => [(k, v)]
  | (k', v') :: d => if k' == k then (k, v) :: d else (k', v') :: insert k v d

/-- Unbinds `k` and keeps the order of the other keys. -/
def erase (k : κ) (d : List (κ × α)) : List (κ × α) :=
  d.filter fun p => !(p.1 == k)

/-- The dictionary that the pairs give when they are written one after the other. -/
def ofPairs (pairs : List (κ × α)) : List (κ × α) :=
  pairs.foldl (fun d p => insert p.1 p.2 d) []

def contains (k : κ) (d : List (κ × α)) : Bool :=
  (d.lookup k).isSome

variable [LawfulBEq κ]

theorem lookup_insert_self (k : κ) (v : α) (d : List (κ × α)) :
    (insert k v d).lookup k = some v := by
  induction d with
  | nil => simp [insert]
  | cons p d ih =>
    obtain ⟨k', v'⟩ := p
    by_cases h : k' == k
    · simp [insert, h]
    · have h' : (k == k') = false := by
        rw [Bool.eq_false_iff]; intro hk; exact h (by simpa using (beq_iff_eq.1 hk).symm)
      simp [insert, h, List.lookup_cons, h', ih]

theorem lookup_insert_of_ne {j k : κ} (h : j ≠ k) (v : α) (d : List (κ × α)) :
    (insert k v d).lookup j = d.lookup j := by
  have hj : (j == k) = false := by simpa using h
  induction d with
  | nil => simp [insert, List.lookup_cons, hj]
  | cons p d ih =>
    obtain ⟨k', v'⟩ := p
    by_cases hk : k' == k
    · have := beq_iff_eq.1 hk; subst this
      simp [insert, List.lookup_cons, hj]
    · by_cases hjk : j == k'
      · simp [insert, hk, List.lookup_cons, hjk]
      · have : (j == k') = false := by simpa using hjk
        simp [insert, hk, List.lookup_cons, this, ih]

/-- Of the writes to a key, the last one counts. -/
theorem lookup_foldl_insert {τ : Type} (key : τ → κ) (value : τ → α) (k : κ) (xs : List τ) (d : List (κ × α)) :
    (xs.foldl (fun d x => insert (key x) (value x) d) d).lookup k =
      ((xs.reverse.find? (key · == k)).map value).or (d.lookup k) := by
  induction xs generalizing d with
  | nil => rfl
  | cons x xs ih =>
    have hstep : (insert (key x) (value x) d).lookup k = (([x].find? (key · == k)).map value).or (d.lookup k) := by
      by_cases h : key x = k
      · simp [← h, lookup_insert_self]
      · simp [lookup_insert_of_ne (Ne.symm h), h]
    rw [List.reverse_cons, List.find?_append, Option.map_or, Option.or_assoc, ← hstep]
    exact ih _

theorem mem_keys_insert {j k : κ} {v : α} {d : List (κ × α)} :
    j ∈ (insert k v d).map Prod.fst ↔ j = k ∨ j ∈ d.map Prod.fst := by
  induction d with
  | nil => simp [insert]
  | cons p d ih =>
    obtain ⟨k', v'⟩ := p
    by_cases hk : k' == k
    · have := beq_iff_eq.1 hk; subst this
      simp [insert]
    · have hc : insert k v ((k', v') :: d) = (k', v') :: insert k v d := by simp [insert, hk]
      rw [hc, List.map_cons, List.mem_cons, ih, List.map_cons, List.mem_cons]
      exact or_left_comm

/-- Writing keeps the keys pairwise different. -/
theorem nodup_keys_insert (k : κ) (v : α) {d : List (κ × α)} (h : (d.map Prod.fst).Nodup) :
    ((insert k v d).map Prod.fst).Nodup := by
  induction d with
  | nil => simp [insert]
  | cons p d ih =>
    obtain ⟨k', v'⟩ := p
    rw [List.map_cons, List.nodup_cons] at h
    by_cases hk : k' == k
    · have := beq_iff_eq.1 hk; subst this
      simpa [insert] using h
    · have hne : k' ≠ k := by simpa using hk
      have hc : insert k v ((k', v') :: d) = (k', v') :: insert k v d := by simp [insert, hk]
      rw [hc, List.map_cons, List.nodup_cons]
      exact ⟨fun hm => (mem_keys_insert.1 hm).elim hne h.1, ih h.2⟩

/-- Writing to a key that is present keeps all places. -/
theorem keys_insert_of_mem {k : κ} (v : α) {d : List (κ × α)} (h : k ∈ d.map Prod.fst) :
    (insert k v d).map Prod.fst = d.map Prod.fst := by
  induction d with
  | nil => simp at h
  | cons p d ih =>
    obtain ⟨k', v'⟩ := p
    by_cases hk : k' == k
    · have := beq_iff_eq.1 hk; subst this
      simp [insert]
    · have hne : k ≠ k' := fun e => hk (by simp [e])
      rw [List.map_cons, List.mem_cons] at h
      have hc : insert k v ((k', v') :: d) = (k', v') :: insert k v d := by simp [insert, hk]
      rw [hc, List.map_cons, List.map_cons, ih (h.resolve_left hne)]

theorem insert_of_not_mem_keys {k : κ} (v : α) {d : List (κ × α)} (h : k ∉ d.map Prod.fst) :
    insert k v d = d ++ [(k, v)] := by
  induction d with
  | nil => rfl
  | cons p d ih =>
    obtain ⟨k', v'⟩ := p
    rw [List.map_cons, List.mem_cons, not_or] at h
    have hk : ¬(k' == k) := fun hk => h.1 (beq_iff_eq.1 hk).symm
    have hc : insert k v ((k', v') :: d) = (k', v') :: insert k v d := by simp [insert, hk]
    rw [hc, ih h.2, List.cons_append]

/-- Pairs with pairwise different keys are a dictionary already. -/
theorem ofPairs_eq_self {pairs : List (κ × α)} (h : (pairs.map Prod.fst).Nodup) : ofPairs pairs = pairs := by
  suffices hall : ∀ d : List (κ × α), ((d ++ pairs).map Prod.fst).Nodup →
      pairs.foldl (fun d p => insert p.1 p.2 d) d = d ++ pairs from hall [] h
  clear h
  induction pairs with
  | nil => exact fun d _ => (List.append_nil d).symm
  | cons p pairs ih =>
    intro d hd
    have hsplit : d ++ p :: pairs = (d ++ [p]) ++ pairs := by simp
    have hnew : p.1 ∉ d.map Prod.fst := by
      rw [List.map_append, List.nodup_append] at hd
      exact fun hmem => hd.2.2 p.1 hmem p.1 List.mem_cons_self rfl
    rw [List.foldl_cons, insert_of_not_mem_keys p.2 hnew, ih _ (hsplit ▸ hd), hsplit]

theorem lookup_isSome_iff_mem_keys {k : κ} {d : List (κ × α)} :
    (d.lookup k).isSome ↔ k ∈ d.map Prod.fst := by
  induction d with
  | nil => simp
  | cons p d ih =>
    obtain ⟨k', v'⟩ := p
    rw [List.map_cons, List.mem_cons, List.lookup_cons]
    by_cases hk : k == k'
    · simp [beq_iff_eq.1 hk]
    · have hne : k ≠ k' := by simpa using hk
      simp [hk, hne, ih]

/-- What stands in a dictionary is found. -/
theorem lookup_eq_some_iff_mem {k : κ} {v : α} {d : List (κ × α)} (h : (d.map Prod.fst).Nodup) :
    d.lookup k = some v ↔ (k, v) ∈ d := by
  induction d with
  | nil => simp
  | cons p d ih =>
    obtain ⟨k', v'⟩ := p
    rw [List.map_cons, List.nodup_cons] at h
    rw [List.mem_cons, Prod.mk.injEq]
    by_cases hk : k = k'
    · subst hk
      have hnot : (k, v) ∉ d := fun hmem => h.1 (List.mem_map.2 ⟨(k, v), hmem, rfl⟩)
      simp [hnot, eq_comm]
    · simp [List.lookup_cons, beq_false_of_ne hk, hk, ih h.2]

theorem lookup_erase_self (k : κ) (d : List (κ × α)) : (erase k d).lookup k = none := by
  rw [← Option.not_isSome_iff_eq_none, lookup_isSome_iff_mem_keys]
  simp [erase]

theorem lookup_erase_of_ne {j k : κ} (h : j ≠ k) (d : List (κ × α)) : (erase k d).lookup j = d.lookup j := by
  induction d with
  | nil => rfl
  | cons p d ih =>
    obtain ⟨k', v'⟩ := p
    by_cases hk : k' == k
    · have := beq_iff_eq.1 hk; subst this
      have hj : (j == k') = false := by simpa using h
      have hc : erase k' ((k', v') :: d) = erase k' d := by simp [erase]
      rw [hc, ih, List.lookup_cons, hj]
    · have hc : erase k ((k', v') :: d) = (k', v') :: erase k d := by simp [erase, hk]
      rw [hc, List.lookup_cons, List.lookup_cons, ih]

omit [LawfulBEq κ] in
/-- Unbinding keeps the order of the keys that are left. -/
theorem keys_erase_sublist (k : κ) (d : List (κ × α)) :
    ((erase k d).map Prod.fst).Sublist (d.map Prod.fst) := by
  unfold erase
  exact List.filter_sublist.map _

end Stencil.Dictionary
