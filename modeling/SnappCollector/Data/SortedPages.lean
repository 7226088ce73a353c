import Mathlib.Data.List.Sort

/-!
# Pages of a list that is sorted up to ties

A list is given up to its order, and every page is a slice of some ordering of it
by a key.  Elements with one key are tied: each page may order them differently.
The pages together are the whole list if no page ends between two tied elements
that differ, and otherwise they can miss one of them and hold the other twice.
-/

namespace SnappCollector.Data

variable {α β κ : Type*} [LinearOrder κ] {key : α → κ} {f : α → β} {xs ys zs : List α}

/-- In the order of the keys, with ties in any order. -/
abbrev SortedBy (key : α → κ) (xs : List α) : Prop := xs.Pairwise (key · ≤ key ·)

structure OrderingOf (key : α → κ) (xs ys : List α) : Prop where
  perm : ys.Perm xs
  sorted : SortedBy key ys

/-- The elements in front of those with key `k`, in any ordering. -/
def below (key : α → κ) (k : κ) (xs : List α) : List α := xs.filter (key · < k)

def tied (key : α → κ) (k : κ) (xs : List α) : List α := xs.filter (key · = k)

def above (key : α → κ) (k : κ) (xs : List α) : List α := xs.filter (k < key ·)

theorem mem_tied {k : κ} {x : α} : x ∈ tied key k xs ↔ x ∈ xs ∧ key x = k := by
  simp [tied]

theorem exists_ordering (key : α → κ) (xs : List α) : ∃ ys, OrderingOf key xs ys := by
  let r : α → α → Prop := fun x y => key x ≤ key y
  have : Std.Total r := ⟨fun x y => le_total (key x) (key y)⟩
  have : IsTrans α r := ⟨fun _ _ _ => le_trans⟩
  exact ⟨xs.insertionSort r, List.perm_insertionSort r xs, List.pairwise_insertionSort r xs⟩

/-! ## Positions and keys -/

theorem OrderingOf.map_key_eq (hys : OrderingOf key xs ys) (hzs : OrderingOf key xs zs) :
    ys.map key = zs.map key := by
  have hleft : (ys.map key).Pairwise (· ≤ ·) := List.pairwise_map.mpr hys.sorted
  have hright : (zs.map key).Pairwise (· ≤ ·) := List.pairwise_map.mpr hzs.sorted
  exact List.Perm.eq_of_pairwise (fun _ _ _ _ => le_antisymm) hleft hright
    ((hys.perm.trans hzs.perm.symm).map key)

/-- A sorted list falls into what is below, tied with and above a key. -/
theorem sortedBy_split (h : SortedBy key xs) (k : κ) :
    below key k xs ++ (tied key k xs ++ above key k xs) = xs := by
  induction xs with
  | nil => rfl
  | cons x xs ih =>
      obtain ⟨hx, hxs⟩ := List.pairwise_cons.mp h
      specialize ih hxs
      rcases lt_trichotomy (key x) k with hlt | heq | hgt
      · simp only [below, tied, above, hlt, hlt.ne, hlt.not_gt, List.filter_cons, decide_true,
          decide_false, if_true, Bool.false_eq_true, if_false, List.cons_append] at ih ⊢
        rw [ih]
      · have hnone : below key k xs = [] := by
          rw [below, List.filter_eq_nil_iff]
          intro y hy
          simpa [← heq] using hx y hy
        rw [hnone, List.nil_append] at ih
        simp only [tied, above] at ih
        have hfirst : below key k (x :: xs) = [] := by
          rw [below, List.filter_cons_of_neg (by simp [heq]), ← below, hnone]
        rw [hfirst, tied, above, List.filter_cons_of_pos (by simp [heq]),
          List.filter_cons_of_neg (by simp [heq]), List.nil_append, List.cons_append, ih]
      · have hnone : ∀ y ∈ x :: xs, k < key y := by
          intro y hy
          rcases List.mem_cons.mp hy with rfl | hin
          · exact hgt
          · exact hgt.trans_le (hx y hin)
        have hbelow : below key k (x :: xs) = [] := by
          rw [below, List.filter_eq_nil_iff]
          intro y hy
          simpa using (hnone y hy).le
        have htied : tied key k (x :: xs) = [] := by
          rw [tied, List.filter_eq_nil_iff]
          intro y hy
          simpa using (hnone y hy).ne'
        have habove : above key k (x :: xs) = x :: xs := by
          rw [above, List.filter_eq_self]
          intro y hy
          simpa using hnone y hy
        rw [hbelow, htied, habove]
        rfl

theorem position_of_key (h : SortedBy key xs) {n : Nat} (hn : n < xs.length) :
    (below key (key xs[n]) xs).length ≤ n ∧
      n < (below key (key xs[n]) xs).length + (tied key (key xs[n]) xs).length := by
  have hsplit := sortedBy_split h (key xs[n])
  generalize hk : key xs[n] = k at *
  constructor
  · by_contra hlt
    have hbelow : (below key k xs)[n]? = some xs[n] := by
      rw [← List.getElem?_append_left (by omega), hsplit, List.getElem?_eq_getElem hn]
    have hmem := List.mem_of_getElem? hbelow
    have hlow := of_decide_eq_true (List.mem_filter.mp hmem).2
    exact absurd hk (ne_of_lt hlow)
  · by_contra hge
    have habove : (above key k xs)[n - (below key k xs).length - (tied key k xs).length]? =
        some xs[n] := by
      rw [← List.getElem?_append_right (by omega), ← List.getElem?_append_right (by omega),
        hsplit, List.getElem?_eq_getElem hn]
    have hmem := List.mem_of_getElem? habove
    have hhigh := of_decide_eq_true (List.mem_filter.mp hmem).2
    exact absurd hk.symm (ne_of_lt hhigh)

/-! ## Cuts -/

/-- Position `n` does not lie between two tied elements that `f` tells apart. -/
def CleanCut (key : α → κ) (f : α → β) (xs : List α) (n : Nat) : Prop :=
  ∀ k, (below key k xs).length < n → n < (below key k xs).length + (tied key k xs).length →
    ∀ x ∈ tied key k xs, ∀ y ∈ tied key k xs, f x = f y

theorem cleanCut_zero : CleanCut key f xs 0 := fun _ hlow => absurd hlow (Nat.not_lt_zero _)

theorem cleanCut_of_length_le {n : Nat} (hn : xs.length ≤ n) : CleanCut key f xs n := by
  intro k _ hhigh
  obtain ⟨ys, hys⟩ := exists_ordering key xs
  have hsplit := congrArg List.length (sortedBy_split hys.sorted k)
  have hbelow : (below key k ys).length = (below key k xs).length :=
    (hys.perm.filter _).length_eq
  have htied : (tied key k ys).length = (tied key k xs).length := (hys.perm.filter _).length_eq
  have hlength := hys.perm.length_eq
  simp only [List.length_append] at hsplit
  omega

/-- In front of a clean cut all orderings have the same elements. -/
theorem take_perm_of_cleanCut {n : Nat} (hcut : CleanCut key f xs n)
    (hys : OrderingOf key xs ys) (hzs : OrderingOf key xs zs) :
    ((ys.take n).map f).Perm ((zs.take n).map f) := by
  have hperm := hys.perm.trans hzs.perm.symm
  by_cases hn : n < ys.length
  · obtain ⟨hle, hlt⟩ := position_of_key hys.sorted hn
    generalize key ys[n] = k at *
    have hbelow : (below key k ys).Perm (below key k zs) := hperm.filter _
    have htied : (tied key k ys).Perm (tied key k zs) := hperm.filter _
    have htake : ∀ {ws}, SortedBy key ws → (below key k ws).length ≤ n →
        n < (below key k ws).length + (tied key k ws).length →
        ws.take n = below key k ws ++ (tied key k ws).take (n - (below key k ws).length) := by
      intro ws hws hle hlt
      conv_lhs => rw [← sortedBy_split hws k]
      rw [List.take_append, List.take_of_length_le hle, List.take_append_of_le_length (by omega)]
    rw [htake hys.sorted hle hlt,
      htake hzs.sorted (hbelow.length_eq ▸ hle) (hbelow.length_eq ▸ htied.length_eq ▸ hlt),
      List.map_append, List.map_append]
    apply (hbelow.map f).append
    rw [hbelow.length_eq]
    rcases Nat.eq_or_lt_of_le hle with heq | hless
    · rw [← heq, hbelow.length_eq, Nat.sub_self]
      rfl
    · -- the cut lies between ties, which are then all alike
      have hbelow_xs : (below key k ys).Perm (below key k xs) := hys.perm.filter _
      have htied_xs : (tied key k ys).Perm (tied key k xs) := hys.perm.filter _
      have hsame := hcut k (hbelow_xs.length_eq ▸ hless)
        (hbelow_xs.length_eq ▸ htied_xs.length_eq ▸ hlt)
      have hpos : 0 < (tied key k ys).length := by omega
      have hrepl : ∀ {ws}, ws ⊆ tied key k ys →
          ws.map f = List.replicate ws.length (f (tied key k ys)[0]) := by
        intro ws hws
        refine List.eq_replicate_iff.mpr ⟨List.length_map _, fun b hb => ?_⟩
        obtain ⟨x, hx, rfl⟩ := List.mem_map.mp hb
        exact hsame x (htied_xs.mem_iff.mp (hws hx)) _
          (htied_xs.mem_iff.mp (List.getElem_mem hpos))
      rw [hrepl (List.take_subset _ _),
        hrepl fun x hx => htied.mem_iff.mpr (List.take_subset _ _ hx), List.length_take,
        List.length_take, htied.length_eq]
  · rw [List.take_of_length_le (by omega),
      List.take_of_length_le (by rw [← hperm.length_eq]; omega)]
    exact hperm.map f

/-- Between two tied elements that differ there is an ordering with them side by
side at the cut, and one with them the other way round. -/
theorem exists_swap {k : κ} {n : Nat} {x y : α} (hlow : (below key k xs).length < n)
    (hhigh : n < (below key k xs).length + (tied key k xs).length)
    (hx : x ∈ tied key k xs) (hy : y ∈ tied key k xs) (hne : x ≠ y) :
    ∃ us vs, us.length + 1 = n ∧ OrderingOf key xs (us ++ x :: y :: vs) ∧
      OrderingOf key xs (us ++ y :: x :: vs) := by
  classical
  obtain ⟨ys, hys⟩ := exists_ordering key xs
  have hsplit := sortedBy_split hys.sorted k
  have hbelow : (below key k ys).Perm (below key k xs) := hys.perm.filter _
  have htied : (tied key k ys).Perm (tied key k xs) := hys.perm.filter _
  have hy' : y ∈ (tied key k xs).erase x := (List.mem_erase_of_ne hne.symm).mpr hy
  obtain ⟨others, hothers⟩ : ∃ others, (tied key k xs).Perm (x :: y :: others) :=
    ⟨_, (List.perm_cons_erase hx).trans ((List.perm_cons_erase hy').cons x)⟩
  have hlength := hothers.length_eq
  have hkeys : ∀ z ∈ x :: y :: others, key z = k := fun z hz =>
    (mem_tied.mp (hothers.mem_iff.mpr hz)).2
  -- any order of the ties keeps the list sorted
  have hordering : ∀ ts, ts.Perm (x :: y :: others) →
      OrderingOf key xs (below key k ys ++ (ts ++ above key k ys)) := by
    intro ts hts
    have hts_tied : ts.Perm (tied key k ys) := hts.trans (hothers.symm.trans htied.symm)
    have hsorted := hys.sorted
    rw [← hsplit, SortedBy, List.pairwise_append, List.pairwise_append] at hsorted
    obtain ⟨hb, ⟨-, ha, hta⟩, hbta⟩ := hsorted
    refine ⟨?_, ?_⟩
    · refine List.Perm.trans ?_ hys.perm
      conv_rhs => rw [← hsplit]
      exact (hts_tied.append_right _).append_left _
    · refine List.pairwise_append.mpr ⟨hb, List.pairwise_append.mpr ⟨?_, ha, ?_⟩, ?_⟩
      · refine List.pairwise_iff_forall_sublist.mpr fun {z w} hzw => ?_
        have hz := hkeys z (hts.mem_iff.mp (hzw.subset (by simp)))
        have hw := hkeys w (hts.mem_iff.mp (hzw.subset (by simp)))
        rw [hz, hw]
      · exact fun z hz w hw => hta z (hts_tied.mem_iff.mp hz) w hw
      · intro z hz w hw
        refine hbta z hz w ?_
        rcases List.mem_append.mp hw with hin | hin
        · exact List.mem_append_left _ (hts_tied.mem_iff.mp hin)
        · exact List.mem_append_right _ hin
  set m := n - (below key k xs).length - 1 with hm
  have hmid : ∀ a b : α, (others.take m ++ a :: b :: others.drop m).Perm (a :: b :: others) := by
    intro a b
    have hcollect : (a :: b :: (others.take m ++ others.drop m)) = a :: b :: others := by
      rw [List.take_append_drop]
    rw [← hcollect]
    exact List.perm_middle.trans (List.perm_middle.cons a)
  refine ⟨below key k ys ++ others.take m, others.drop m ++ above key k ys, ?_, ?_, ?_⟩
  · rw [List.length_append, List.length_take, hbelow.length_eq]
    simp only [List.length_cons] at hlength
    omega
  · simpa using hordering _ (hmid x y)
  · simpa using hordering _ ((hmid y x).trans (List.Perm.swap x y others))

/-! ## Pages -/

def page (limit : Nat) (xs : List α) (i : Nat) : List α := (xs.drop (i * limit)).take limit

theorem take_succ_mul (limit : Nat) (xs : List α) (i : Nat) :
    xs.take ((i + 1) * limit) = xs.take (i * limit) ++ page limit xs i := by
  rw [page, Nat.succ_mul, List.take_add]

theorem OrderingOf.length_eq (hys : OrderingOf key xs ys) : ys.length = xs.length :=
  hys.perm.length_eq

section Splice

variable {limit : Nat} {ordering : Nat → List α}

/-- The pages of many orderings are those of one sorted list. -/
theorem exists_splice (hlimit : 0 < limit) (hordering : ∀ i, OrderingOf key xs (ordering i)) :
    ∃ ys, SortedBy key ys ∧ ys.length = xs.length ∧ ys ⊆ xs ∧
      ∀ i, page limit ys i = page limit (ordering i) i := by
  have hlength : ∀ i, (ordering i).length = xs.length := fun i => (hordering i).length_eq
  let ys := List.ofFn fun i : Fin xs.length =>
    (ordering (i / limit)).get ⟨i, by rw [hlength]; exact i.isLt⟩
  have hget : ∀ i, ys[i]? = (ordering (i / limit))[i]? := by
    intro i
    rw [List.getElem?_ofFn]
    split
    · exact (List.getElem?_eq_getElem _).symm
    · exact (List.getElem?_eq_none (by rw [hlength]; omega)).symm
  refine ⟨ys, ?_, List.length_ofFn, ?_, ?_⟩
  · -- the keys are those of any one ordering
    have hkeys : ys.map key = (ordering 0).map key := by
      apply List.ext_getElem?
      intro i
      rw [List.getElem?_map, hget, ← List.getElem?_map,
        (hordering (i / limit)).map_key_eq (hordering 0)]
    rw [SortedBy, ← List.pairwise_map (f := key), hkeys, List.pairwise_map]
    exact (hordering 0).sorted
  · intro x hx
    obtain ⟨i, rfl⟩ := List.mem_ofFn.mp hx
    exact (hordering _).perm.mem_iff.mp (List.getElem_mem _)
  · intro i
    apply List.ext_getElem?
    intro j
    simp only [page, List.getElem?_take, List.getElem?_drop]
    split
    next hj =>
      have hdiv : (i * limit + j) / limit = i := by
        rw [Nat.mul_comm, Nat.mul_add_div hlimit, Nat.div_eq_of_lt hj, Nat.add_zero]
      rw [hget, hdiv]
    next => rfl

/-- If no page ends between tied elements that differ, the pages hold everything
once. -/
theorem splice_perm (hlimit : 0 < limit) (hordering : ∀ i, OrderingOf key xs (ordering i))
    (hlength : ys.length = xs.length)
    (hpages : ∀ i, page limit ys i = page limit (ordering i) i)
    (hclean : ∀ i, CleanCut key f xs (i * limit)) : (ys.map f).Perm (xs.map f) := by
  have hprefix : ∀ i, ((ys.take (i * limit)).map f).Perm
      (((ordering 0).take (i * limit)).map f) := by
    intro i
    induction i with
    | zero => simp
    | succ i ih =>
        have hthis := take_perm_of_cleanCut (hclean i) (hordering 0) (hordering i)
        have hnext := take_perm_of_cleanCut (hclean (i + 1)) (hordering i) (hordering 0)
        rw [take_succ_mul, List.map_append] at hnext ⊢
        rw [hpages]
        exact ((ih.trans hthis).append_right _).trans hnext
  have hfinal := hprefix xs.length
  have hall : xs.length ≤ xs.length * limit := Nat.le_mul_of_pos_right _ hlimit
  rw [List.take_of_length_le (by omega),
    List.take_of_length_le (by rw [(hordering 0).length_eq]; exact hall)] at hfinal
  exact hfinal.trans ((hordering 0).perm.map f)

/-- A page that ends between tied elements that differ can be followed by one that
holds the first of them again, in place of the second. -/
theorem exists_repeated {i : Nat} (hsplit : ¬CleanCut key f xs (i * limit)) :
    ∃ (ordering : Nat → List α) (ys : List α), (∀ j, OrderingOf key xs (ordering j)) ∧
      ys.length = xs.length ∧ (∀ j, page limit ys j = page limit (ordering j) j) ∧
      ¬(ys.map f).Perm (xs.map f) := by
  simp only [CleanCut, not_forall, exists_prop] at hsplit
  obtain ⟨k, hlow, hhigh, x, hx, y, hy, hne⟩ := hsplit
  obtain ⟨us, vs, hus, hxy, hyx⟩ :=
    exists_swap hlow hhigh hx hy fun heq => hne (congrArg f heq)
  refine ⟨fun j => if j < i then us ++ x :: y :: vs else us ++ y :: x :: vs,
    us ++ x :: x :: vs, fun j => ?_, ?_, fun j => ?_, fun hperm => ?_⟩
  · dsimp only
    split
    · exact hxy
    · exact hyx
  · rw [← hxy.length_eq]
    simp
  · dsimp only
    split
    next hj =>
      have hend : j * limit + limit ≤ us.length + 1 := by
        rw [hus, ← Nat.succ_mul]
        exact Nat.mul_le_mul_right _ hj
      have htake : ∀ zs : List α, (us ++ x :: zs).take (us.length + 1) = us ++ [x] := by
        intro zs
        rw [List.take_append, List.take_of_length_le (by omega)]
        simp
      have hpage : ∀ zs : List α, page limit zs j =
          ((zs.take (us.length + 1)).drop (j * limit)).take limit := by
        intro zs
        rw [page, List.drop_take, List.take_take, min_eq_left (by omega)]
      rw [hpage, hpage (us ++ x :: y :: vs), htake, htake]
    next hj =>
      have hstart : us.length + 1 ≤ j * limit := by
        rw [hus]
        exact Nat.mul_le_mul_right _ (by omega)
      have hdrop : ∀ z : α, (us ++ z :: x :: vs).drop (j * limit) =
          (x :: vs).drop (j * limit - (us.length + 1)) := by
        intro z
        rw [List.drop_append, List.drop_of_length_le (by omega), List.nil_append,
          show j * limit - us.length = j * limit - (us.length + 1) + 1 by omega,
          List.drop_succ_cons]
      rw [page, page, hdrop, hdrop]
  · have hboth := hperm.trans (hxy.perm.map f).symm
    simp only [List.map_append, List.map_cons, List.perm_append_left_iff, List.perm_cons] at hboth
    rw [← List.singleton_append, ← List.singleton_append (x := f y),
      List.perm_append_right_iff, List.singleton_perm_singleton] at hboth
    exact hne hboth

end Splice

end SnappCollector.Data
