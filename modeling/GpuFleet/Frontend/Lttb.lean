import GpuFleet.Foundations.FirstMax
import Mathlib.Algebra.Order.Field.Rat
import Mathlib.Algebra.Order.Floor.Semifield
import Mathlib.Data.Rat.Floor

/-!
# Thinning a time series

`lttb` keeps the first and the last point and one point of each of the buckets
in between: the first one whose triangle with the point kept last and with the
average of the next bucket is the greatest.  A missing value counts as the value
of the point kept last.

Without missing values the points kept are those of the method
(`lttb_faithful`).  A missing value is weighed as if it lay level with the point
kept last (`area_eq`), so it may win although its bucket has others.  This
happens exactly if its level triangle is not beaten by the triangle of a value,
in a walk that skips missing values (`skips_nulls_iff`).

The arithmetic is that of the rational numbers.
-/

namespace GpuFleet

open Foundations

/-- A point of a series. -/
structure DataPoint where
  x : Rat
  /-- The value, unless it is missing. -/
  y : Option Rat
  deriving DecidableEq, Inhabited

/-! ## The choice in a bucket -/

section Choice

variable (data : List DataPoint) (threshold : Nat)

/-- `data[k]` -/
def point (k : Nat) : DataPoint := data.getD k default

/-- The points between the first and the last, shared among `threshold - 2` buckets. -/
def bucketSize : Rat := ((data.length : Rat) - 2) / ((threshold : Rat) - 2)

/-- `Math.floor(i * bucketSize) + 1` -/
def bucketEdge (i : Nat) : Nat := ⌊(i : Rat) * bucketSize data threshold⌋₊ + 1

/-- The end of bucket `i`. -/
def bucketEnd (i : Nat) : Nat := min (bucketEdge data threshold (i + 1)) (data.length - 1)

/-- The indices from `first` to before `last`. -/
def indicesFrom (first last : Nat) : List Nat := List.range' first (last - first)

/-- The points of bucket `i`. -/
def bucket (i : Nat) : List Nat :=
  indicesFrom (bucketEdge data threshold i) (bucketEnd data threshold i)

/-- The points whose average is the anchor of bucket `i`. -/
def nextBucket (i : Nat) : List Nat :=
  indicesFrom (bucketEnd data threshold i) (min (bucketEdge data threshold (i + 2)) data.length)

/-- The mean of points, where there are some. -/
def mean (points : List (Rat × Rat)) : Rat × Rat :=
  ((points.map Prod.fst).sum / points.length, (points.map Prod.snd).sum / points.length)

/-- The average of the points of the next bucket that have a value, else the last point. -/
def anchor (i : Nat) : Rat × Rat :=
  let present := (nextBucket data threshold i).filterMap fun k =>
    (point data k).y.map fun y => ((point data k).x, y)
  if present = [] then
    let last := point data (data.length - 1)
    (last.x, last.y.getD 0)
  else mean present

/-- The area that point `j` of bucket `i` is weighed by, after point `a` was kept. -/
def area (a i j : Nat) : Rat :=
  let avg := anchor data threshold i
  let ax := (point data a).x
  let ay := (point data a).y.getD 0
  let yEff := (point data j).y.getD ay
  |(ax - avg.1) * (yEff - ay) - (ax - (point data j).x) * (avg.2 - ay)|

/-- The point kept of bucket `i`. -/
def chosen (a i : Nat) : Nat :=
  (scanMax (area data threshold a i) (-1, bucketEdge data threshold i) (bucket data threshold i)).2

/-- The points kept of so many buckets from bucket `i` on, after point `a` was kept. -/
def keptFrom (a i : Nat) : (left : Nat) → List Nat
  | 0 => []
  | left + 1 =>
      if bucketEnd data threshold i ≤ bucketEdge data threshold i then keptFrom a (i + 1) left
      else
        let next := chosen data threshold a i
        next :: keptFrom next (i + 1) left

/-- The indices of the points kept. -/
def lttbIndices : List Nat :=
  0 :: (keptFrom data threshold 0 0 (threshold - 2) ++ [data.length - 1])

end Choice

/-- `lttb`, on values that hold a data point. -/
def lttb {P : Type} (dataPoint : P → DataPoint) (data : List P) (threshold : Nat) : List P :=
  if data.length ≤ threshold ∨ threshold ≤ 2 then data
  else (lttbIndices (data.map dataPoint) threshold).filterMap (data[·]?)

/-- `lttbRecords` -/
def lttbRecords {T : Type} (records : List T) (getX : T → Rat) (getY : T → Option Rat)
    (threshold : Nat) : List T :=
  if records.length ≤ threshold ∨ threshold ≤ 2 then records
  else
    let dps := records.mapIdx fun idx r => (DataPoint.mk (getX r) (getY r), idx)
    (lttb Prod.fst dps threshold).filterMap fun d => records[d.2]?

/-! ## The buckets -/

section Buckets

variable {data : List DataPoint} {threshold : Nat}

theorem bucketEdge_eq (ht : 2 < threshold) (hn : threshold < data.length) (i : Nat) :
    bucketEdge data threshold i = i * (data.length - 2) / (threshold - 2) + 1 := by
  have hlength : ((data.length : Rat) - 2) = ((data.length - 2 : Nat) : Rat) := by
    rw [Nat.cast_sub (by omega)]
    rfl
  have hthreshold : ((threshold : Rat) - 2) = ((threshold - 2 : Nat) : Rat) := by
    rw [Nat.cast_sub (by omega)]
    rfl
  rw [bucketEdge, bucketSize, hlength, hthreshold, ← mul_div_assoc, ← Nat.cast_mul,
    Nat.floor_div_eq_div]

/-- The buckets are not empty. -/
theorem bucketEdge_lt (ht : 2 < threshold) (hn : threshold < data.length) (i : Nat) :
    bucketEdge data threshold i < bucketEdge data threshold (i + 1) := by
  rw [bucketEdge_eq ht hn, bucketEdge_eq ht hn, Nat.add_lt_add_iff_right]
  calc i * (data.length - 2) / (threshold - 2)
      < i * (data.length - 2) / (threshold - 2) + 1 := Nat.lt_succ_self _
    _ = (i * (data.length - 2) + (threshold - 2)) / (threshold - 2) :=
        (Nat.add_div_right _ (by omega)).symm
    _ ≤ (i + 1) * (data.length - 2) / (threshold - 2) := by
        refine Nat.div_le_div_right ?_
        rw [Nat.add_one_mul]
        omega

theorem bucketEdge_mono (ht : 2 < threshold) (hn : threshold < data.length) {i j : Nat}
    (h : i ≤ j) : bucketEdge data threshold i ≤ bucketEdge data threshold j := by
  induction h with
  | refl => exact Nat.le_refl _
  | step _ ih => exact ih.trans (bucketEdge_lt ht hn _).le

theorem bucketEdge_zero : bucketEdge data threshold 0 = 1 := by
  simp [bucketEdge]

/-- The buckets end before the last point. -/
theorem bucketEdge_last (ht : 2 < threshold) (hn : threshold < data.length) :
    bucketEdge data threshold (threshold - 2) = data.length - 1 := by
  rw [bucketEdge_eq ht hn, Nat.mul_div_cancel_left _ (by omega)]
  omega

/-- A bucket ends where the next one begins. -/
theorem bucketEnd_eq (ht : 2 < threshold) (hn : threshold < data.length) {i : Nat}
    (hi : i < threshold - 2) : bucketEnd data threshold i = bucketEdge data threshold (i + 1) := by
  rw [bucketEnd, ← bucketEdge_last ht hn]
  exact Nat.min_eq_left (bucketEdge_mono ht hn hi)

theorem mem_indicesFrom {first last k : Nat} : k ∈ indicesFrom first last ↔ first ≤ k ∧ k < last := by
  rw [indicesFrom, List.mem_range'_1]
  omega

theorem bucket_ne_nil (ht : 2 < threshold) (hn : threshold < data.length) {i : Nat}
    (hi : i < threshold - 2) : bucket data threshold i ≠ [] := by
  have hlt := bucketEdge_lt ht hn i
  have hmem : bucketEdge data threshold i ∈ bucket data threshold i := by
    rw [bucket, mem_indicesFrom, bucketEnd_eq ht hn hi]
    exact ⟨Nat.le_refl _, hlt⟩
  exact List.ne_nil_of_mem hmem

/-- Areas are not negative. -/
theorem area_nonneg (a i j : Nat) : (-1 : Rat) < area data threshold a i j :=
  lt_of_lt_of_le (by decide) (abs_nonneg _)

/-- The point chosen is the first of the greatest area. -/
theorem isFirstMax_chosen (ht : 2 < threshold) (hn : threshold < data.length) (a : Nat) {i : Nat}
    (hi : i < threshold - 2) :
    IsFirstMax (area data threshold a i) (bucket data threshold i) (chosen data threshold a i) :=
  isFirstMax_scanMax (bucket_ne_nil ht hn hi) fun _ _ => area_nonneg ..

/-- One point of every bucket is kept. -/
theorem keptFrom_succ (ht : 2 < threshold) (hn : threshold < data.length) (a : Nat) {i left : Nat}
    (hi : i < threshold - 2) :
    keptFrom data threshold a i (left + 1) =
      chosen data threshold a i ::
        keptFrom data threshold (chosen data threshold a i) (i + 1) left := by
  have hlt := bucketEdge_lt ht hn i
  rw [← bucketEnd_eq ht hn hi] at hlt
  rw [keptFrom, if_neg (not_le.mpr hlt)]

theorem chosen_mem (ht : 2 < threshold) (hn : threshold < data.length) (a : Nat) {i : Nat}
    (hi : i < threshold - 2) : bucketEdge data threshold i ≤ chosen data threshold a i ∧
      chosen data threshold a i < bucketEdge data threshold (i + 1) := by
  rw [← bucketEnd_eq ht hn hi]
  exact mem_indicesFrom.mp (isFirstMax_chosen ht hn a hi).mem

theorem length_keptFrom (ht : 2 < threshold) (hn : threshold < data.length) (a : Nat) {i left : Nat}
    (hi : i + left = threshold - 2) : (keptFrom data threshold a i left).length = left := by
  induction left generalizing a i with
  | zero => rfl
  | succ left ih =>
      rw [keptFrom_succ ht hn a (by omega), List.length_cons, ih _ (by omega)]

/-- The point kept of each bucket is chosen after the one kept before. -/
theorem keptFrom_getElem? (ht : 2 < threshold) (hn : threshold < data.length) (a : Nat)
    {i left k : Nat} (hi : i + left = threshold - 2) (hk : k < left) :
    ∃ prev, (a :: keptFrom data threshold a i left)[k]? = some prev ∧
      (keptFrom data threshold a i left)[k]? = some (chosen data threshold prev (i + k)) := by
  induction left generalizing a i k with
  | zero => exact absurd hk (Nat.not_lt_zero k)
  | succ left ih =>
      rw [keptFrom_succ ht hn a (by omega)]
      cases k with
      | zero => exact ⟨a, rfl, rfl⟩
      | succ k =>
          obtain ⟨prev, hprev, hnext⟩ := ih (chosen data threshold a i) (i := i + 1) (by omega)
            (Nat.lt_of_succ_lt_succ hk)
          refine ⟨prev, hprev, ?_⟩
          rw [List.getElem?_cons_succ, hnext, Nat.add_right_comm, Nat.add_assoc]

/-- The points kept come in order, and none before the bucket. -/
theorem keptFrom_pairwise (ht : 2 < threshold) (hn : threshold < data.length) (a : Nat)
    {i left : Nat} (hi : i + left = threshold - 2) :
    (keptFrom data threshold a i left).Pairwise (· < ·) ∧
      ∀ k ∈ keptFrom data threshold a i left, bucketEdge data threshold i ≤ k ∧
        k < data.length - 1 := by
  induction left generalizing a i with
  | zero => exact ⟨.nil, by simp [keptFrom]⟩
  | succ left ih =>
      obtain ⟨hpairwise, hbounds⟩ := ih (chosen data threshold a i) (i := i + 1) (by omega)
      obtain ⟨hge, hlt⟩ := chosen_mem ht hn a (by omega : i < threshold - 2)
      have hend : bucketEdge data threshold (i + 1) ≤ data.length - 1 :=
        bucketEdge_last ht hn ▸ bucketEdge_mono ht hn (by omega)
      rw [keptFrom_succ ht hn a (by omega)]
      refine ⟨.cons (fun k hk => hlt.trans_le (hbounds k hk).1) hpairwise, fun k hk => ?_⟩
      rcases List.mem_cons.mp hk with rfl | hk
      · exact ⟨hge, hlt.trans_le hend⟩
      · exact ⟨(bucketEdge_lt ht hn i).le.trans (hbounds k hk).1, (hbounds k hk).2⟩

/-- The indices of the points kept are strictly increasing. -/
theorem lttbIndices_pairwise (ht : 2 < threshold) (hn : threshold < data.length) :
    (lttbIndices data threshold).Pairwise (· < ·) := by
  obtain ⟨hpairwise, hbounds⟩ := keptFrom_pairwise ht hn 0 (Nat.zero_add (threshold - 2))
  refine .cons (fun k hk => ?_) (List.pairwise_append.mpr ⟨hpairwise, by simp, fun k hk m hm => ?_⟩)
  · rcases List.mem_append.mp hk with hk | hk
    · have hge := (hbounds k hk).1
      rw [bucketEdge_zero] at hge
      omega
    · rw [List.mem_singleton.mp hk]
      omega
  · rw [List.mem_singleton.mp hm]
    exact (hbounds k hk).2

/-- Each point kept is chosen after the one kept before. -/
theorem lttbIndices_getElem? (ht : 2 < threshold) (hn : threshold < data.length) {i : Nat}
    (hi : i < threshold - 2) :
    ∃ prev, (lttbIndices data threshold)[i]? = some prev ∧
      (lttbIndices data threshold)[i + 1]? = some (chosen data threshold prev i) := by
  obtain ⟨prev, hprev, hnext⟩ := keptFrom_getElem? ht hn 0 (Nat.zero_add (threshold - 2)) hi
  have hlength := length_keptFrom ht hn 0 (Nat.zero_add (threshold - 2))
  refine ⟨prev, ?_, ?_⟩
  · rw [lttbIndices, ← List.cons_append, List.getElem?_append_left (by simp; omega), hprev]
  · rw [lttbIndices, List.getElem?_cons_succ, List.getElem?_append_left (by omega), hnext,
      Nat.zero_add]

/-- A point kept is the first, the last, or chosen in a bucket. -/
theorem mem_lttbIndices (ht : 2 < threshold) (hn : threshold < data.length) {m : Nat}
    (hm : m ∈ lttbIndices data threshold) : m = 0 ∨ m = data.length - 1 ∨
      ∃ i < threshold - 2, ∃ prev, (lttbIndices data threshold)[i + 1]? = some m ∧
        m = chosen data threshold prev i := by
  have hlength := length_keptFrom ht hn 0 (Nat.zero_add (threshold - 2))
  rw [lttbIndices, List.mem_cons, List.mem_append, List.mem_singleton] at hm
  rcases hm with hm | hm | hm
  · exact .inl hm
  · obtain ⟨i, hi, he⟩ := List.getElem_of_mem hm
    obtain ⟨prev, -, hnext⟩ := lttbIndices_getElem? ht hn (i := i) (by omega)
    have hkept : (lttbIndices data threshold)[i + 1]? = some m := by
      rw [lttbIndices, List.getElem?_cons_succ, List.getElem?_append_left hi,
        List.getElem?_eq_getElem hi, he]
    refine .inr (.inr ⟨i, by omega, prev, hkept, ?_⟩)
    rw [hkept] at hnext
    exact Option.some.inj hnext
  · exact .inr (.inl hm)

theorem lttbIndices_lt (ht : 2 < threshold) (hn : threshold < data.length) {m : Nat}
    (hm : m ∈ lttbIndices data threshold) : m < data.length := by
  rcases mem_lttbIndices ht hn hm with rfl | rfl | ⟨i, hi, prev, -, rfl⟩
  · omega
  · omega
  · have hlt := (chosen_mem ht hn prev hi).2
    have hle := bucketEdge_mono ht hn (by omega : i + 1 ≤ threshold - 2)
    rw [bucketEdge_last ht hn] at hle
    omega

/-- Every inner point is in one bucket. -/
theorem existsUnique_bucket (ht : 2 < threshold) (hn : threshold < data.length) {k : Nat}
    (hfirst : 0 < k) (hlast : k < data.length - 1) :
    ∃! i, i < threshold - 2 ∧ k ∈ bucket data threshold i := by
  have hex : ∀ m ≤ threshold - 2, k < bucketEdge data threshold m →
      ∃ i < m, bucketEdge data threshold i ≤ k ∧ k < bucketEdge data threshold (i + 1) := by
    intro m hm hk
    induction m with
    | zero =>
        rw [bucketEdge_zero] at hk
        omega
    | succ m ih =>
        rcases Nat.lt_or_ge k (bucketEdge data threshold m) with hlt | hge
        · obtain ⟨i, hi, h⟩ := ih (by omega) hlt
          exact ⟨i, by omega, h⟩
        · exact ⟨m, by omega, hge, hk⟩
  obtain ⟨i, hi, hge, hlt⟩ := hex (threshold - 2) (Nat.le_refl _)
    (by rw [bucketEdge_last ht hn]; exact hlast)
  refine ⟨i, ⟨hi, ?_⟩, fun i' h => ?_⟩
  · rw [bucket, mem_indicesFrom, bucketEnd_eq ht hn hi]
    exact ⟨hge, hlt⟩
  · obtain ⟨hi', hmem⟩ := h
    rw [bucket, mem_indicesFrom, bucketEnd_eq ht hn hi'] at hmem
    rcases Nat.lt_trichotomy i' i with hlt' | rfl | hlt'
    · have hle := bucketEdge_mono ht hn (show i' + 1 ≤ i by omega)
      omega
    · rfl
    · have hle := bucketEdge_mono ht hn (show i + 1 ≤ i' by omega)
      omega

end Buckets

/-! ## Records -/

/-- Elements at increasing indices are a part of the list. -/
theorem filterMap_getElem?_sublist {T : Type} (l : List T) {indices : List Nat} {k : Nat}
    (h : indices.Pairwise (· < ·)) (hk : ∀ m ∈ indices, k ≤ m) :
    (indices.filterMap (l[·]?)).Sublist (l.drop k) := by
  induction indices generalizing k with
  | nil => exact List.nil_sublist _
  | cons j indices ih =>
      obtain ⟨hj, hpairwise⟩ := List.pairwise_cons.mp h
      have hlater := ih hpairwise (k := j + 1) hj
      have hdrop : (l.drop j).Sublist (l.drop k) := by
        have hle := hk j List.mem_cons_self
        rw [← Nat.sub_add_cancel hle, Nat.add_comm, ← List.drop_drop]
        exact List.drop_sublist _ _
      cases he : l[j]? with
      | none =>
          rw [List.filterMap_cons_none he]
          exact (hlater.trans (List.drop_drop ▸ List.drop_sublist 1 (l.drop j))).trans hdrop
      | some x =>
          rw [List.filterMap_cons_some he]
          refine List.Sublist.trans ?_ hdrop
          obtain ⟨hlt, rfl⟩ := List.getElem?_eq_some_iff.mp he
          rw [List.drop_eq_getElem_cons hlt]
          exact hlater.cons_cons _

section Records

variable {T : Type} {records : List T} {getX : T → Rat} {getY : T → Option Rat} {threshold : Nat}

/-- The data points of records. -/
def dataPoints (records : List T) (getX : T → Rat) (getY : T → Option Rat) : List DataPoint :=
  records.map fun r => ⟨getX r, getY r⟩

/-- The records kept are those at the indices kept. -/
theorem lttbRecords_eq (ht : 2 < threshold) (hn : threshold < records.length) :
    lttbRecords records getX getY threshold =
      (lttbIndices (dataPoints records getX getY) threshold).filterMap (records[·]?) := by
  have hpoints : (records.mapIdx fun idx r => (DataPoint.mk (getX r) (getY r), idx)).map Prod.fst =
      dataPoints records getX getY := by
    refine List.ext_getElem? fun k => ?_
    simp [dataPoints, Function.comp_def]
  rw [lttbRecords, if_neg (by omega)]
  show (lttb Prod.fst (records.mapIdx fun idx r => (DataPoint.mk (getX r) (getY r), idx))
    threshold).filterMap _ = _
  rw [lttb, if_neg (by rw [List.length_mapIdx]; omega), hpoints, List.filterMap_filterMap]
  refine List.filterMap_congr fun k _ => ?_
  rw [List.getElem?_mapIdx]
  cases he : records[k]? with
  | none => rfl
  | some r => simp [he]

/-- Thinned records are a part of the records, in their order. -/
theorem lttbRecords_sublist (records : List T) (getX : T → Rat) (getY : T → Option Rat)
    (threshold : Nat) : (lttbRecords records getX getY threshold).Sublist records := by
  by_cases hall : records.length ≤ threshold ∨ threshold ≤ 2
  · rw [lttbRecords, if_pos hall]
  · have hn : threshold < (dataPoints records getX getY).length := by
      rw [dataPoints, List.length_map]
      omega
    rw [lttbRecords_eq (by omega) (by omega)]
    exact filterMap_getElem?_sublist records (lttbIndices_pairwise (by omega) hn) fun _ _ =>
      Nat.zero_le _

end Records

/-! ## Points without missing values -/

/-- Points that all have a value. -/
def complete (points : List (Rat × Rat)) : List DataPoint := points.map fun p => ⟨p.1, some p.2⟩

/-- The area of a triangle. -/
def triangleArea (p q r : Rat × Rat) : Rat :=
  |(p.1 - r.1) * (q.2 - p.2) - (p.1 - q.1) * (r.2 - p.2)| / 2

/-- The indices are those of the method: the ends and, of each inner bucket, one point whose
triangle with the point before it and with the average of the next bucket is the greatest. -/
structure Faithful (points : List (Rat × Rat)) (threshold : Nat) (indices : List Nat) : Prop where
  length : indices.length = threshold
  increasing : indices.Pairwise (· < ·)
  first : indices.head? = some 0
  last : indices.getLast? = some (points.length - 1)
  buckets : ∀ k, 0 < k → k < points.length - 1 →
    ∃! i, i < threshold - 2 ∧ k ∈ bucket (complete points) threshold i
  picks : ∀ i < threshold - 2, ∃ prev k, indices[i]? = some prev ∧ indices[i + 1]? = some k ∧
    (∀ m ∈ indices, m ∈ bucket (complete points) threshold i ↔ m = k) ∧
    ∀ j ∈ bucket (complete points) threshold i,
      let average := mean ((nextBucket (complete points) threshold i).map (points.getD · 0))
      triangleArea (points.getD prev 0) (points.getD j 0) average ≤
        triangleArea (points.getD prev 0) (points.getD k 0) average

section Complete

variable {points : List (Rat × Rat)} {threshold : Nat}

theorem length_complete (points : List (Rat × Rat)) : (complete points).length = points.length :=
  List.length_map _

theorem point_complete {k : Nat} (hk : k < points.length) :
    point (complete points) k = ⟨(points.getD k 0).1, some (points.getD k 0).2⟩ := by
  simp [point, complete, List.getD_eq_getElem?_getD, hk]

/-- The anchor is the average of the next bucket. -/
theorem anchor_complete (ht : 2 < threshold) (hn : threshold < points.length) (i : Nat) :
    anchor (complete points) threshold i =
      mean ((nextBucket (complete points) threshold i).map (points.getD · 0)) := by
  have hn' : threshold < (complete points).length := by rwa [length_complete]
  have hlt : ∀ k ∈ nextBucket (complete points) threshold i, k < points.length := by
    intro k hk
    have hend := (mem_indicesFrom.mp hk).2
    rw [length_complete] at hend
    omega
  have hpresent : (nextBucket (complete points) threshold i).filterMap (fun k =>
      (point (complete points) k).y.map fun y => ((point (complete points) k).x, y)) =
        (nextBucket (complete points) threshold i).map (points.getD · 0) := by
    rw [← List.filterMap_eq_map]
    refine List.filterMap_congr fun k hk => ?_
    rw [point_complete (hlt k hk)]
    rfl
  have hne : nextBucket (complete points) threshold i ≠ [] := by
    refine List.ne_nil_of_mem (a := bucketEnd (complete points) threshold i) ?_
    have hedge : bucketEdge (complete points) threshold (i + 1) <
        bucketEdge (complete points) threshold (i + 2) := bucketEdge_lt ht hn' (i + 1)
    rw [nextBucket, mem_indicesFrom, bucketEnd, length_complete]
    omega
  rw [anchor, hpresent, if_neg (by simpa using hne)]

/-- Points are weighed by the areas of their triangles. -/
theorem area_complete (ht : 2 < threshold) (hn : threshold < points.length) {i a j : Nat}
    (ha : a < points.length) (hj : j < points.length) :
    area (complete points) threshold a i j = 2 * triangleArea (points.getD a 0) (points.getD j 0)
      (mean ((nextBucket (complete points) threshold i).map (points.getD · 0))) := by
  rw [area, anchor_complete ht hn i, point_complete ha, point_complete hj, triangleArea]
  simp only [Option.getD_some]
  rw [mul_div_cancel₀ _ (by decide)]

/-- The indices kept are those of the method. -/
theorem lttbIndices_faithful (ht : 2 < threshold) (hn : threshold < points.length) :
    Faithful points threshold (lttbIndices (complete points) threshold) := by
  have hn' : threshold < (complete points).length := by rwa [length_complete]
  have hinner : ∀ i < threshold - 2, ∀ k ∈ bucket (complete points) threshold i,
      0 < k ∧ k < points.length - 1 := by
    intro i hi k hk
    have hmem := mem_indicesFrom.mp hk
    have hzero := bucketEdge_mono ht hn' (Nat.zero_le i)
    rw [bucketEdge_zero] at hzero
    rw [bucketEnd, length_complete] at hmem
    omega
  constructor
  case length =>
    rw [lttbIndices, List.length_cons, List.length_append,
      length_keptFrom ht hn' 0 (Nat.zero_add (threshold - 2)), List.length_singleton]
    omega
  case increasing => exact lttbIndices_pairwise ht hn'
  case first => rfl
  case last => rw [lttbIndices, ← List.cons_append, List.getLast?_concat, length_complete]
  case buckets =>
    intro k hfirst hlast
    exact existsUnique_bucket ht hn' hfirst (by rwa [length_complete])
  case picks =>
    intro i hi
    obtain ⟨prev, hprev, hnext⟩ := lttbIndices_getElem? ht hn' hi
    have hmax := isFirstMax_chosen ht hn' prev hi
    refine ⟨prev, _, hprev, hnext, fun m hm => ⟨fun hmem => ?_, fun e => e ▸ hmax.mem⟩,
      fun j hj => ?_⟩
    · rcases mem_lttbIndices ht hn' hm with rfl | rfl | ⟨i', hi', prev', hm', rfl⟩
      · exact absurd (hinner i hi _ hmem).1 (Nat.lt_irrefl 0)
      · have hlt := (hinner i hi _ hmem).2
        rw [length_complete] at hlt
        exact absurd hlt (Nat.lt_irrefl _)
      · -- Two buckets have no point in common.
        have hmem' := (isFirstMax_chosen ht hn' prev' hi').mem
        obtain ⟨hfirst, hlast⟩ := hinner i hi _ hmem
        have hunique := existsUnique_bucket ht hn' hfirst (by rwa [length_complete])
        obtain rfl := hunique.unique ⟨hi', hmem'⟩ ⟨hi, hmem⟩
        exact Option.some.inj (hm'.symm.trans hnext)
    · have hbound := lttbIndices_lt ht hn' (List.mem_of_getElem? hprev)
      have hle := hmax.le hj
      rw [length_complete] at hbound
      have hj' := (hinner i hi _ hj).2
      have hk' := (hinner i hi _ hmax.mem).2
      rw [area_complete ht hn hbound (by omega), area_complete ht hn hbound (by omega)] at hle
      exact le_of_mul_le_mul_left hle (by decide)

/-- On points without missing values the thinning is that of the method, and it keeps the records
at the same indices. -/
theorem lttb_faithful (points : List (Rat × Rat)) (threshold : Nat) (ht : 2 < threshold)
    (hn : threshold < points.length) :
    ∃ indices, Faithful points threshold indices ∧
      lttb id (complete points) threshold = indices.filterMap ((complete points)[·]?) ∧
      ∀ (T : Type) (records : List T) (getX : T → Rat) (getY : T → Option Rat),
        dataPoints records getX getY = complete points →
          lttbRecords records getX getY threshold = indices.filterMap (records[·]?) := by
  refine ⟨_, lttbIndices_faithful ht hn, ?_, fun T records getX getY h => ?_⟩
  · rw [lttb, if_neg (by rw [length_complete]; omega), List.map_id]
  · have hlength := congrArg List.length h
    rw [dataPoints, List.length_map, length_complete] at hlength
    rw [lttbRecords_eq ht (by omega), h]

/-- Three of five points. -/
theorem lttb_faithful_five :
    2 < 3 ∧ ∃ indices, Faithful [(0, 0), (1, 5), (2, 1), (3, 2), (4, 0)] 3 indices ∧
      lttb id (complete [(0, 0), (1, 5), (2, 1), (3, 2), (4, 0)]) 3 =
        indices.filterMap ((complete [(0, 0), (1, 5), (2, 1), (3, 2), (4, 0)])[·]?) := by
  obtain ⟨indices, hfaithful, hlttb, -⟩ :=
    lttb_faithful [(0, 0), (1, 5), (2, 1), (3, 2), (4, 0)] 3 (by decide) (by decide)
  exact ⟨by decide, indices, hfaithful, hlttb⟩

end Complete

/-! ## Missing values -/

section Missing

variable (data : List DataPoint) (threshold : Nat)

/-- The value of the point is not missing. -/
def hasValue (k : Nat) : Bool := (point data k).y.isSome

/-- A bucket with a value in it keeps a point with a value. -/
def SkipsNulls : Prop :=
  ∀ i < threshold - 2, (∃ j ∈ bucket data threshold i, hasValue data j = true) →
    ∀ k, (lttbIndices data threshold)[i + 1]? = some k → hasValue data k = true

/-- A point as it is drawn, at height 0 where its value is missing. -/
def plotted (k : Nat) : Rat × Rat := ((point data k).x, (point data k).y.getD 0)

/-- The values of the bucket after bucket `i`. -/
def valuesAhead (i : Nat) : List (Rat × Rat) :=
  ((nextBucket data threshold i).filter (hasValue data)).map (plotted data)

/-- The mean of the values of the next bucket, or the last point where it has none. -/
def ahead (i : Nat) : Rat × Rat :=
  if valuesAhead data threshold i = [] then plotted data (data.length - 1)
  else mean (valuesAhead data threshold i)

/-- The area of the triangle of two points and a third one level with the first. -/
def levelArea (p : Rat × Rat) (x : Rat) (r : Rat × Rat) : Rat := |p.1 - x| * |r.2 - p.2| / 2

/-- The triangle of a value with the point kept last and what is ahead; a missing value has a level
one. -/
def weight (a i j : Nat) : Rat :=
  if hasValue data j then triangleArea (plotted data a) (plotted data j) (ahead data threshold i)
  else levelArea (plotted data a) (plotted data j).1 (ahead data threshold i)

/-- The points to choose from when missing values are skipped. -/
def candidates (i : Nat) : List Nat :=
  let present := (bucket data threshold i).filter (hasValue data)
  if present = [] then bucket data threshold i else present

/-- The point kept when missing values are skipped: the first one of the greatest weight. -/
def chosenSkipping (a i : Nat) : Nat :=
  (scanMax (weight data threshold a i) (-1, bucketEdge data threshold i)
    (candidates data threshold i)).2

/-- Every missing value of a bucket with values is beaten: its level triangle is smaller than the
triangle of some value, or as large as that of an earlier one. -/
def BeatenAt (a i : Nat) : Prop :=
  (∃ k ∈ bucket data threshold i, hasValue data k = true) →
    ∀ j ∈ bucket data threshold i, hasValue data j = false →
      ∃ k ∈ bucket data threshold i, hasValue data k = true ∧
        let level := levelArea (plotted data a) (plotted data j).1 (ahead data threshold i)
        let triangle := triangleArea (plotted data a) (plotted data k) (ahead data threshold i)
        level < triangle ∨ level = triangle ∧ k < j

/-- So it goes in so many buckets, along the points kept when missing values are skipped. -/
def BeatenFrom (a i : Nat) : (left : Nat) → Prop
  | 0 => True
  | left + 1 =>
      BeatenAt data threshold a i ∧ BeatenFrom (chosenSkipping data threshold a i) (i + 1) left

/-- Missing values are beaten in all buckets. -/
def NullsBeaten : Prop := BeatenFrom data threshold 0 0 (threshold - 2)

variable {data threshold}

instance decidableBeatenAt (a i : Nat) : Decidable (BeatenAt data threshold a i) :=
  inferInstanceAs (Decidable (_ → _))

instance decidableBeatenFrom : ∀ a i left, Decidable (BeatenFrom data threshold a i left)
  | _, _, 0 => isTrue trivial
  | a, i, left + 1 =>
      have := decidableBeatenFrom (chosenSkipping data threshold a i) (i + 1) left
      inferInstanceAs (Decidable (_ ∧ _))

instance : Decidable (NullsBeaten data threshold) := decidableBeatenFrom 0 0 (threshold - 2)

theorem pairwise_bucket (i : Nat) : (bucket data threshold i).Pairwise (· < ·) :=
  List.pairwise_lt_range'

/-- The anchor of a bucket is what lies ahead of it. -/
theorem anchor_eq (i : Nat) : anchor data threshold i = ahead data threshold i := by
  have hpresent : (nextBucket data threshold i).filterMap (fun k =>
      (point data k).y.map fun y => ((point data k).x, y)) = valuesAhead data threshold i := by
    rw [valuesAhead, ← List.filterMap_eq_map, ← List.filterMap_eq_filter,
      List.filterMap_filterMap]
    refine List.filterMap_congr fun k _ => ?_
    cases hy : (point data k).y with
    | none => simp [Option.guard, hasValue, hy]
    | some y => simp [Option.guard, hasValue, plotted, hy]
  rw [anchor, ahead, hpresent]
  rfl

/-- A value is weighed by its triangle, and a missing value by a level one. -/
theorem area_eq (a i j : Nat) : area data threshold a i j = 2 * weight data threshold a i j := by
  rw [area, anchor_eq, weight]
  cases hy : (point data j).y with
  | none =>
      rw [if_neg (by simp [hasValue, hy]), levelArea, mul_div_cancel₀ _ (by decide), ← abs_mul]
      simp only [plotted, Option.getD_none, sub_self, mul_zero, zero_sub, abs_neg]
  | some y =>
      rw [if_pos (by simp [hasValue, hy]), triangleArea, mul_div_cancel₀ _ (by decide)]
      simp only [plotted, hy, Option.getD_some]

theorem weight_nonneg (a i j : Nat) : (-1 : Rat) < weight data threshold a i j := by
  have hnonneg : 0 ≤ area data threshold a i j := abs_nonneg _
  rw [area_eq] at hnonneg
  linarith

/-- The point chosen is the first one of the greatest weight. -/
theorem isFirstMax_weight (ht : 2 < threshold) (hn : threshold < data.length) (a : Nat) {i : Nat}
    (hi : i < threshold - 2) : IsFirstMax (weight data threshold a i) (bucket data threshold i)
      (chosen data threshold a i) := by
  refine (isFirstMax_chosen ht hn a hi).comp (fun j k hlt => ?_) (fun j k hle => ?_)
  · rw [area_eq, area_eq] at hlt
    linarith
  · rw [area_eq, area_eq] at hle
    linarith

theorem weight_value {a i k : Nat} (h : hasValue data k = true) : weight data threshold a i k =
    triangleArea (plotted data a) (plotted data k) (ahead data threshold i) := if_pos h

theorem weight_missing {a i j : Nat} (h : hasValue data j = false) : weight data threshold a i j =
    levelArea (plotted data a) (plotted data j).1 (ahead data threshold i) := if_neg (by simp [h])

/-- A bucket with values keeps one of them exactly if its missing values are beaten. -/
theorem hasValue_chosen_iff (ht : 2 < threshold) (hn : threshold < data.length) (a : Nat) {i : Nat}
    (hi : i < threshold - 2) :
    ((∃ k ∈ bucket data threshold i, hasValue data k = true) →
        hasValue data (chosen data threshold a i) = true) ↔ BeatenAt data threshold a i := by
  have hfirst := isFirstMax_weight ht hn a hi
  have hsorted := @pairwise_bucket data threshold i
  obtain ⟨before, after, hsplit, hbefore, hafter⟩ := id hfirst
  rw [hsplit, List.pairwise_append, List.pairwise_cons] at hsorted
  constructor
  · intro h hex j hj hmissing
    refine ⟨_, hfirst.mem, h hex, ?_⟩
    rw [← weight_value (h hex), ← weight_missing hmissing]
    rw [hsplit, List.mem_append, List.mem_cons] at hj
    rcases hj with hj | rfl | hj
    · exact .inl (hbefore j hj)
    · rw [h hex] at hmissing
      cases hmissing
    · rcases (hafter j hj).lt_or_eq with hlt | heq
      · exact .inl hlt
      · exact .inr ⟨heq, hsorted.2.1.1 j hj⟩
  · intro h hex
    cases hvalue : hasValue data (chosen data threshold a i) with
    | true => rfl
    | false =>
        obtain ⟨k, hk, hpresent, hbeats⟩ := h hex _ hfirst.mem hvalue
        rw [← weight_value hpresent, ← weight_missing hvalue] at hbeats
        rcases hbeats with hlt | ⟨heq, hlt⟩
        · exact absurd (hfirst.le hk) (not_le.mpr hlt)
        · rw [hsplit, List.mem_append, List.mem_cons] at hk
          rcases hk with hk | rfl | hk
          · exact absurd heq (hbefore k hk).ne'
          · exact absurd hlt (Nat.lt_irrefl _)
          · exact absurd hlt (hsorted.2.1.1 k hk).not_gt

/-- As long as they are, skipping them makes no difference. -/
theorem chosenSkipping_eq (ht : 2 < threshold) (hn : threshold < data.length) {a i : Nat}
    (hi : i < threshold - 2) (h : BeatenAt data threshold a i) :
    chosenSkipping data threshold a i = chosen data threshold a i := by
  have hfirst := isFirstMax_weight ht hn a hi
  rw [chosenSkipping, candidates]
  split
  · rw [scanMax_of_isFirstMax hfirst (weight_nonneg ..)]
  · rename_i hpresent
    obtain ⟨k, hk⟩ := List.exists_mem_of_ne_nil _ hpresent
    obtain ⟨hmem, hvalue⟩ := List.mem_filter.mp hk
    have hchosen := (hasValue_chosen_iff ht hn a hi).mpr h ⟨k, hmem, hvalue⟩
    rw [scanMax_of_isFirstMax (hfirst.filter hchosen) (weight_nonneg ..)]

theorem skipsFrom_iff (ht : 2 < threshold) (hn : threshold < data.length) {a i left : Nat}
    (hi : i + left = threshold - 2) :
    (∀ m < left, (∃ j ∈ bucket data threshold (i + m), hasValue data j = true) →
      ∀ k, (keptFrom data threshold a i left)[m]? = some k → hasValue data k = true) ↔
        BeatenFrom data threshold a i left := by
  induction left generalizing a i with
  | zero => simp [BeatenFrom]
  | succ left ih =>
      have hlt : i < threshold - 2 := by omega
      have hlater := ih (a := chosen data threshold a i) (i := i + 1) (by omega)
      rw [keptFrom_succ ht hn a hlt, BeatenFrom, ← hasValue_chosen_iff ht hn a hlt]
      constructor
      · intro h
        have hhere : (∃ k ∈ bucket data threshold i, hasValue data k = true) →
            hasValue data (chosen data threshold a i) = true :=
          fun hex => h 0 (Nat.succ_pos left) hex _ rfl
        refine ⟨hhere, ?_⟩
        rw [chosenSkipping_eq ht hn hlt ((hasValue_chosen_iff ht hn a hlt).mp hhere), ← hlater]
        intro m hm hex k hk
        refine h (m + 1) (Nat.succ_lt_succ hm) ?_ k hk
        rwa [Nat.add_right_comm, Nat.add_assoc] at hex
      · rintro ⟨hhere, hrest⟩ m hm hex k hk
        rw [chosenSkipping_eq ht hn hlt ((hasValue_chosen_iff ht hn a hlt).mp hhere), ← hlater] at hrest
        cases m with
        | zero => exact Option.some.inj hk ▸ hhere hex
        | succ m =>
            refine hrest m (Nat.lt_of_succ_lt_succ hm) ?_ k hk
            rwa [Nat.add_right_comm, Nat.add_assoc]

/-- Buckets with values keep points with values if and only if missing values are beaten along the
points that are kept when they are skipped. -/
theorem skips_nulls_iff (data : List DataPoint) (threshold : Nat) (ht : 2 < threshold)
    (hn : threshold < data.length) :
    SkipsNulls data threshold ↔ NullsBeaten data threshold := by
  have hkept : ∀ i < threshold - 2, (lttbIndices data threshold)[i + 1]? =
      (keptFrom data threshold 0 0 (threshold - 2))[i]? := by
    intro i hi
    have hlength := length_keptFrom ht hn 0 (Nat.zero_add (threshold - 2))
    rw [lttbIndices, List.getElem?_cons_succ, List.getElem?_append_left (by omega)]
  rw [NullsBeaten, ← skipsFrom_iff ht hn (Nat.zero_add _), SkipsNulls]
  refine forall₂_congr fun i hi => ?_
  rw [hkept i hi, Nat.zero_add]

end Missing

/-- A missing value beside a peak is skipped. -/
theorem skips_nulls_peak : 2 < 3 ∧ SkipsNulls [⟨0, some 0⟩, ⟨1, some 9⟩, ⟨2, none⟩, ⟨3, some 1⟩,
    ⟨4, some 0⟩] 3 :=
  ⟨by decide, (skips_nulls_iff _ 3 (by decide) (by decide)).mpr (by decide +kernel)⟩

/-- A rise, with one value missing before its end. -/
def riseWithGap : List DataPoint := [⟨0, some 0⟩, ⟨1, some 2⟩, ⟨2, some 5⟩, ⟨3, none⟩, ⟨4, some 10⟩]

/-- The missing value is kept. -/
theorem missing_value_kept : ¬ ∀ (data : List DataPoint) (threshold : Nat), 2 < threshold →
    threshold < data.length → SkipsNulls data threshold := by
  intro h
  have hskips := h riseWithGap 3 (by decide) (by decide) 0 (by decide)
  have hvalue : ∃ j ∈ bucket riseWithGap 3 0, hasValue riseWithGap j = true := by decide +kernel
  have hkept : (lttbIndices riseWithGap 3)[1]? = some 3 := by decide +kernel
  exact absurd (hskips hvalue 3 hkept) (by decide)

end GpuFleet
