import Worksheet.Proofs.Decimal.Floating
import Worksheet.Proofs.Recognition.Monotone

namespace Worksheet

open Decimal

namespace Score

structure Tracked (s : Score) (part : ℚ) : Prop where
  nonneg : 0 ≤ s.exact
  coarse : s.exact = 0 ∨ 1 / 2 ^ 60 ≤ s.exact
  tracks : Tracks s.toFloat s.exact part

theorem sizable_of_bounds {v : ℚ} (hlow : v = 0 ∨ 1 / 2 ^ 200 ≤ |v|) (hhigh : |v| ≤ 2 ^ 200) :
    Sizable v := by
  refine hlow.imp_right (fun h => ⟨?_, ?_⟩)
  · calc (2 : ℚ) ^ (-900 : Int) ≤ 2 ^ (-200 : Int) :=
          zpow_le_zpow_right₀ (by norm_num) (by norm_num)
      _ = 1 / 2 ^ 200 := by rw [zpow_neg, one_div]; rfl
      _ ≤ |v| := h
  · calc |v| ≤ 2 ^ 200 := hhigh
      _ = 2 ^ (200 : Int) := rfl
      _ ≤ 2 ^ (900 : Int) := zpow_le_zpow_right₀ (by norm_num) (by norm_num)

variable {a b : Score} {part : ℚ}

theorem tracked_zero : zero.Tracked 0 where
  nonneg := le_of_eq rfl
  coarse := Or.inl rfl
  tracks := (hasValue_ofInt (by decide)).tracks

theorem Tracked.sum (ha : a.Tracked part) (hb : b.Tracked part) (hpart : part ≤ 1 / 2)
    (h : a.exact + b.exact ≤ 2 ^ 100) : (sum a b).Tracked (part + 1 / 2 ^ 51) := by
  have hnonneg : 0 ≤ a.exact + b.exact := add_nonneg ha.nonneg hb.nonneg
  have hcoarse : a.exact + b.exact = 0 ∨ 1 / 2 ^ 60 ≤ a.exact + b.exact := by
    rcases ha.coarse with hzero | hlow
    · rw [hzero, zero_add]
      exact hb.coarse
    · exact Or.inr (hlow.trans (le_add_of_nonneg_right hb.nonneg))
  refine ⟨hnonneg, hcoarse, ha.tracks.add hb.tracks ha.nonneg hb.nonneg hpart ?_⟩
  apply sizable_of_bounds
  · rw [abs_of_nonneg hnonneg]
    exact hcoarse.imp_right (fun h => le_trans (by norm_num) h)
  · rw [abs_of_nonneg hnonneg]
    exact h.trans (by norm_num)

theorem Tracked.mono {other : ℚ} (h : a.Tracked part) (hle : part ≤ other) : a.Tracked other :=
  ⟨h.nonneg, h.coarse, h.tracks.mono hle⟩

theorem tracked_foldl (scores : List Score) :
    ∀ {start : Score} {part : ℚ}, (∀ s ∈ scores, s.Tracked (2 / 2 ^ 51) ∧ s.exact ≤ 100) →
      start.Tracked part → 2 / 2 ^ 51 ≤ part → part + scores.length / 2 ^ 51 ≤ 1 / 2 →
        start.exact + 100 * scores.length ≤ 2 ^ 100 →
          (scores.foldl Score.sum start).Tracked (part + scores.length / 2 ^ 51) := by
  induction scores with
  | nil =>
      intro start part _ hstart _ _ _
      simpa using hstart
  | cons s scores ih =>
      intro start part hscores hstart hpart hhalf hbound
      obtain ⟨hs, hle⟩ := hscores s List.mem_cons_self
      rw [List.length_cons] at hhalf hbound ⊢
      push_cast at hhalf hbound ⊢
      have hrest : (0 : ℚ) ≤ scores.length / 2 ^ 51 := by positivity
      have hlength : (0 : ℚ) ≤ scores.length := Nat.cast_nonneg _
      have hnext : (Score.sum start s).Tracked (part + 1 / 2 ^ 51) :=
        hstart.sum (hs.mono hpart) (by linarith) (by linarith)
      have htotal := ih (fun t ht => hscores t (List.mem_cons_of_mem _ ht)) hnext (by linarith)
        (by linarith) (by rw [Score.exact]; linarith)
      exact htotal.mono (by linarith)

section Mean

variable {scores : List Score} (hne : scores ≠ []) (hlength : scores.length < 2 ^ 40)
  (h : ∀ s ∈ scores, s.Tracked (2 / 2 ^ 51) ∧ s.exact ≤ 100)

include hlength h

theorem tracked_total : (total scores).Tracked ((scores.length + 2) / 2 ^ 51) := by
  have hmax : (scores.length : ℚ) ≤ 2 ^ 40 := by exact_mod_cast hlength.le
  have hzero : zero.exact = 0 := rfl
  have htotal := tracked_foldl scores h (tracked_zero.mono (by norm_num)) le_rfl (by linarith)
    (by rw [hzero]; linarith)
  exact htotal.mono (by linarith)

include hne

theorem mean_bounds :
    0 ≤ (total scores).exact / scores.length ∧ (total scores).exact / scores.length ≤ 100 ∧
      ((total scores).exact / scores.length = 0 ∨
        1 / 2 ^ 100 ≤ (total scores).exact / scores.length) := by
  have hpos : (0 : ℚ) < scores.length := by exact_mod_cast List.length_pos_iff.mpr hne
  have hmax : (scores.length : ℚ) ≤ 2 ^ 40 := by exact_mod_cast hlength.le
  have htotal := tracked_total hlength h
  refine ⟨div_nonneg htotal.nonneg hpos.le,
    (inRange_mean (fun s hs => ⟨(h s hs).1.nonneg, (h s hs).2⟩)).2, ?_⟩
  refine htotal.coarse.imp (fun hzero => by rw [hzero, zero_div]) (fun hlow => ?_)
  rw [le_div_iff₀ hpos]
  linarith

theorem tracks_mean :
    Tracks ((total scores).toFloat / Float.ofInt scores.length)
      ((total scores).exact / scores.length) ((scores.length + 3) / 2 ^ 51) := by
  have hpos : (0 : ℚ) < scores.length := by exact_mod_cast List.length_pos_iff.mpr hne
  have hmax : (scores.length : ℚ) ≤ 2 ^ 40 := by exact_mod_cast hlength.le
  have hcount : HasValue (Float.ofInt scores.length) scores.length := by
    exact_mod_cast hasValue_ofInt (z := scores.length) (by omega)
  obtain ⟨hnonneg, hbound, hcoarse⟩ := mean_bounds hne hlength h
  have hsizable : Sizable ((total scores).exact / scores.length) := by
    apply sizable_of_bounds
    · rw [abs_of_nonneg hnonneg]
      exact hcoarse.imp_right (fun hlow => le_trans (by norm_num) hlow)
    · rw [abs_of_nonneg hnonneg]
      exact hbound.trans (by norm_num)
  have hmean := (tracked_total hlength h).tracks.div hcount hpos.ne' (by linarith) hsizable
  exact hmean.mono (by linarith)

theorem tracks_half_above_mean :
    Tracks ((total scores).toFloat / Float.ofInt scores.length + 0.5)
      ((total scores).exact / scores.length + 1 / 2) ((scores.length + 4) / 2 ^ 51) := by
  have hmax : (scores.length : ℚ) ≤ 2 ^ 40 := by exact_mod_cast hlength.le
  have hcount : (0 : ℚ) ≤ scores.length := Nat.cast_nonneg _
  obtain ⟨hnonneg, hbound, -⟩ := mean_bounds hne hlength h
  have hsizable : Sizable ((total scores).exact / scores.length + 1 / 2) := by
    apply sizable_of_bounds
    · rw [abs_of_nonneg (by linarith)]
      exact Or.inr (by linarith)
    · rw [abs_of_nonneg (by linarith)]
      exact le_trans (by linarith) (by norm_num : (128 : ℚ) ≤ 2 ^ 200)
  have hsum := (tracks_mean hne hlength h).add (hasValue_half.tracks.mono (by positivity)) hnonneg
    (by norm_num) (by linarith) hsizable
  exact hsum.mono (by linarith)

end Mean

theorem ratio_bounds {b : Int} {n : Nat} (hb : b.natAbs < 2 ^ 53) (hn : 0 < n) (hn' : n < 2 ^ 53) :
    ((b / n : ℚ) = 0 ∨ 1 / 2 ^ 53 ≤ |(b / n : ℚ)|) ∧ |(b / n : ℚ)| ≤ 2 ^ 53 := by
  have hpos : (0 : ℚ) < n := by exact_mod_cast hn
  have hone : (1 : ℚ) ≤ n := by exact_mod_cast hn
  have hmax : (n : ℚ) ≤ 2 ^ 53 := by exact_mod_cast hn'.le
  have hcast : |(b : ℚ)| = (b.natAbs : ℚ) := by rw [Nat.cast_natAbs, Int.cast_abs]
  have hhigh : (b.natAbs : ℚ) ≤ 2 ^ 53 := by exact_mod_cast hb.le
  rw [abs_div, hcast, abs_of_pos hpos]
  constructor
  · obtain rfl | hne := eq_or_ne b 0
    · exact Or.inl (by simp)
    · have hlow : (1 : ℚ) ≤ b.natAbs := by exact_mod_cast Int.natAbs_pos.mpr hne
      exact Or.inr (div_le_div₀ (by positivity) hlow hpos hmax)
  · exact (div_le_self (by positivity) hone).trans hhigh

theorem tracks_percent {b : Int} {n : Nat} (hb : b.natAbs < 2 ^ 53) (hn : 0 < n)
    (hn' : n < 2 ^ 53) :
    Tracks (percent (whole b) n).toFloat (b / n * 100) (2 / 2 ^ 51) := by
  obtain ⟨hlow, hhigh⟩ := ratio_bounds hb hn hn'
  have hcount : HasValue (Float.ofInt n) n := by exact_mod_cast hasValue_ofInt (z := n) (by omega)
  have hhundred : HasValue (Float.ofInt 100) 100 := by
    exact_mod_cast hasValue_ofInt (z := 100) (by decide)
  have hratio := (hasValue_ofInt hb).tracks.div hcount (by exact_mod_cast hn.ne') (by norm_num)
    (sizable_of_bounds (hlow.imp_right (fun h => le_trans (by norm_num) h))
      (hhigh.trans (by norm_num)))
  have habs : |(b / n * 100 : ℚ)| = |(b / n : ℚ)| * 100 := by
    rw [abs_mul, abs_of_pos (by norm_num : (0 : ℚ) < 100)]
  refine (hratio.mul hhundred (by norm_num) (sizable_of_bounds ?_ ?_)).mono (by norm_num)
  · rw [habs]
    refine hlow.imp (fun h => by rw [h, zero_mul]) (fun h => ?_)
    exact le_trans (by norm_num) (mul_le_mul_of_nonneg_right h (by norm_num))
  · rw [habs]
    exact (mul_le_mul_of_nonneg_right hhigh (by norm_num)).trans (by norm_num)

end Score

namespace Recognition

variable {r : Recognition} {q : Question} {response : OrderedMap (List String)}

def marks (response : OrderedMap (List String)) (q : Question) : Int :=
  (selection response q ∩ q.correctOptions.toFinset).card -
    (selection response q \ q.correctOptions.toFinset).card -
    (q.correctOptions.toFinset \ selection response q).card

def trueMean (r : Recognition) (response : OrderedMap (List String)) : ℚ :=
  (r.questions.map (fun q =>
    ((max 0 (marks response q) : Int) : ℚ) / q.correctOptions.length * 100)).sum /
      r.questions.length

structure Modest (r : Recognition) (response : OrderedMap (List String)) : Prop where
  length_lt : r.questions.length < 2 ^ 40
  length_key_lt : ∀ q ∈ r.questions, q.correctOptions.length < 2 ^ 52
  card_selection_lt : ∀ q ∈ r.questions, (selection response q).card < 2 ^ 52

theorem balance_eq_marks (h : q.correctOptions.Nodup) : balance response q = marks response q := by
  rw [balance, marks, countP_eq_card_sdiff_iff.mpr (h.filter _)]

theorem natAbs_marks_le (response : OrderedMap (List String)) (q : Question) :
    (marks response q).natAbs ≤ (selection response q).card + q.correctOptions.toFinset.card := by
  have hselected :=
    Finset.card_inter_add_card_sdiff (selection response q) q.correctOptions.toFinset
  have hkey := Finset.card_le_card
    (Finset.sdiff_subset (s := q.correctOptions.toFinset) (t := selection response q))
  rw [marks]
  omega

theorem points_eq_marks (h : q.correctOptions.Nodup) :
    points response q = ((max 0 (marks response q) : Int) : ℚ) / q.correctOptions.length * 100 := by
  have hlength : (0 : ℚ) ≤ q.correctOptions.length := Nat.cast_nonneg _
  rw [points_eq, balance_eq_marks h, List.toFinset_card_of_nodup h]
  obtain hneg | hpos := le_total (marks response q) 0
  · have hneg' : (marks response q : ℚ) ≤ 0 := by exact_mod_cast hneg
    rw [max_eq_left hneg, Int.cast_zero, zero_div, zero_mul]
    refine max_eq_left (mul_nonpos_of_nonpos_of_nonneg ?_ (by norm_num))
    exact div_nonpos_of_nonpos_of_nonneg hneg' hlength
  · have hpos' : (0 : ℚ) ≤ marks response q := by exact_mod_cast hpos
    rw [max_eq_right hpos, max_eq_right (by positivity)]

theorem exactMean_eq_trueMean (h : ∀ q ∈ r.questions, q.correctOptions.Nodup)
    (response : OrderedMap (List String)) : r.exactMean response = r.trueMean response := by
  rw [exactMean, trueMean, List.map_congr_left (fun q hq => points_eq_marks (h q hq))]

theorem tracked_questionScore (hne : q.correctOptions ≠ [])
    (hbalance : (balance response q).natAbs < 2 ^ 53)
    (hcard : q.correctOptions.toFinset.card < 2 ^ 53) :
    (questionScore q (selectedFor response q)).Tracked (2 / 2 ^ 51) := by
  have hpos : 0 < q.correctOptions.toFinset.card := by
    rw [Finset.card_pos, List.toFinset_nonempty_iff]
    exact hne
  have hpoints := points_eq response q
  rw [points] at hpoints
  have htracks := (Score.tracks_percent hbalance hpos hcard).atLeastZero (by norm_num)
  refine ⟨(inRange_questionScore (nodup_selectedFor response q)).1, ?_, ?_⟩
  · rw [hpoints]
    obtain hneg | habove := le_or_gt (balance response q / q.correctOptions.toFinset.card : ℚ) 0
    · exact Or.inl (max_eq_left (mul_nonpos_of_nonpos_of_nonneg hneg (by norm_num)))
    · have hlow := (Score.ratio_bounds hbalance hpos hcard).1.resolve_left habove.ne'
      rw [abs_of_pos habove] at hlow
      exact Or.inr (le_max_of_le_right (by linarith))
  · rw [hpoints, questionScore_eq response hne]
    exact htracks

theorem tracked_scores (hkeys : ∀ q ∈ r.questions, q.correctOptions ≠ [] ∧ q.correctOptions.Nodup)
    (hsize : Modest r response) :
    ∀ s ∈ r.questions.map (fun q => questionScore q (selectedFor response q)),
      s.Tracked (2 / 2 ^ 51) ∧ s.exact ≤ 100 := by
  intro s hs
  obtain ⟨q, hq, rfl⟩ := List.mem_map.mp hs
  obtain ⟨hne, hnodup⟩ := hkeys q hq
  have hkey := hsize.length_key_lt q hq
  have hselection := hsize.card_selection_lt q hq
  have hmarks := natAbs_marks_le response q
  rw [← List.toFinset_card_of_nodup hnodup] at hkey
  refine ⟨tracked_questionScore hne ?_ (by omega),
    (inRange_questionScore (nodup_selectedFor response q)).2⟩
  rw [balance_eq_marks hnodup]
  omega

theorem exactMean_bounds (r : Recognition) (response : OrderedMap (List String)) :
    0 ≤ r.exactMean response ∧ r.exactMean response ≤ 100 := by
  have h : ∀ s ∈ r.questions.map (fun q => questionScore q (selectedFor response q)),
      s.InRange := by
    intro s hs
    obtain ⟨q, -, rfl⟩ := List.mem_map.mp hs
    exact inRange_questionScore (nodup_selectedFor response q)
  have hmean := Score.inRange_mean h
  rw [Score.InRange, Score.exact, Score.exact_total_eq_sum, List.map_map, List.length_map] at hmean
  exact hmean

theorem score_near_mean (hkeys : ∀ q ∈ r.questions, q.correctOptions ≠ [] ∧ q.correctOptions.Nodup)
    (hsize : Modest r response) :
    ∃ w : ℚ, (r.grade response).score.toFloat = Float.ofInt ⌊w⌋ ∧
      |w - (r.exactMean response + 1 / 2)| ≤ (r.questions.length + 4) / 2 ^ 44 := by
  obtain hnil | hne := eq_or_ne r.questions []
  · have hzero : r.exactMean response = 0 := by simp [exactMean, hnil]
    have hfloor : ⌊(1 / 2 : ℚ)⌋ = 0 := by norm_num
    refine ⟨1 / 2, ?_, ?_⟩
    · rw [hfloor, grade, hnil]
      rfl
    · rw [hzero, zero_add, sub_self, abs_zero]
      positivity
  · obtain ⟨w, hvalue, hdist⟩ := Score.tracks_half_above_mean (by simpa using hne)
      (by simpa using hsize.length_lt) (tracked_scores hkeys hsize)
    refine ⟨w, ?_, ?_⟩
    · rw [← hvalue.floor_eq]
      change (meanScore _).toFloat = _
      rw [meanScore, if_neg (by simpa using hne)]
      rfl
    · obtain ⟨hlow, hhigh⟩ := exactMean_bounds r response
      rw [Score.exact_total_eq_sum, List.map_map, List.length_map] at hdist
      change |w - (r.exactMean response + 1 / 2)| ≤ _ * |r.exactMean response + 1 / 2| at hdist
      rw [abs_of_nonneg (by linarith : 0 ≤ r.exactMean response + 1 / 2)] at hdist
      have hsum : r.exactMean response + 1 / 2 ≤ 2 ^ 7 := by linarith
      calc _ ≤ _ := hdist
        _ ≤ (r.questions.length + 4) / 2 ^ 51 * 2 ^ 7 := by gcongr
        _ = (r.questions.length + 4) / 2 ^ 44 := by ring

section Grid

variable {x w : ℚ} {n : Nat} {z : Int}

theorem one_le_of_grid (hgrid : n * x = z) (hpos : 0 < n * x) : 1 ≤ n * x := by
  rw [hgrid] at hpos ⊢
  exact_mod_cast hpos

theorem floor_eq_or_one_le (hn : 0 < n) (hgrid : n * x = z) :
    (⌊x⌋ : ℚ) = x ∨ 1 ≤ n * (x - ⌊x⌋) := by
  have hpos : (0 : ℚ) < n := by exact_mod_cast hn
  refine (Int.floor_le x).eq_or_lt.imp_right (fun hlt => ?_)
  refine one_le_of_grid (z := z - n * ⌊x⌋) ?_ (mul_pos hpos (sub_pos.mpr hlt))
  rw [mul_sub, hgrid]
  push_cast
  rfl

theorem one_le_above_floor (hn : 0 < n) (hgrid : n * x = z) : 1 ≤ n * (⌊x⌋ + 1 - x) := by
  have hpos : (0 : ℚ) < n := by exact_mod_cast hn
  refine one_le_of_grid (z := n * (⌊x⌋ + 1) - z) ?_
    (mul_pos hpos (sub_pos.mpr (Int.lt_floor_add_one x)))
  rw [mul_sub, hgrid]
  push_cast
  rfl

theorem floor_eq_of_near (hn : 0 < n) (hgrid : n * x = z) (h : n * |w - x| < 1) :
    ⌊w⌋ = ⌊x⌋ ∨ (⌊x⌋ : ℚ) = x ∧ ⌊w⌋ = ⌊x⌋ - 1 := by
  have hone : (1 : ℚ) ≤ n := by exact_mod_cast hn
  have hpos : (0 : ℚ) < n := by linarith
  have hclose : |w - x| < 1 :=
    (le_mul_of_one_le_left (abs_nonneg (w - x)) hone).trans_lt h
  obtain ⟨hlow, hhigh⟩ := abs_lt.mp hclose
  have hbelow : n * (x - w) < 1 := by
    rw [abs_sub_comm] at h
    exact (mul_le_mul_of_nonneg_left (le_abs_self (x - w)) hpos.le).trans_lt h
  have habove : n * (w - x) < 1 :=
    (mul_le_mul_of_nonneg_left (le_abs_self (w - x)) hpos.le).trans_lt h
  have hlt : w < ⌊x⌋ + 1 := by
    have := lt_of_mul_lt_mul_left (habove.trans_le (one_le_above_floor hn hgrid)) hpos.le
    linarith
  obtain hle | hgt := le_or_gt (⌊x⌋ : ℚ) w
  · exact Or.inl (Int.floor_eq_iff.mpr ⟨hle, hlt⟩)
  · right
    have hwhole : (⌊x⌋ : ℚ) = x := by
      refine (floor_eq_or_one_le hn hgrid).resolve_right (fun hstep => ?_)
      have := lt_of_mul_lt_mul_left (hbelow.trans_le hstep) hpos.le
      linarith
    refine ⟨hwhole, Int.floor_eq_iff.mpr ⟨?_, ?_⟩⟩
    · push_cast
      linarith
    · push_cast
      linarith

end Grid

theorem exists_int_mul_sum {D : ℚ} {vs : List ℚ} (h : ∀ v ∈ vs, ∃ z : Int, D * v = z) :
    ∃ z : Int, D * vs.sum = z := by
  induction vs with
  | nil => exact ⟨0, by simp⟩
  | cons v vs ih =>
      obtain ⟨a, ha⟩ := h v List.mem_cons_self
      obtain ⟨b, hb⟩ := ih (fun u hu => h u (List.mem_cons_of_mem _ hu))
      exact ⟨a + b, by rw [List.sum_cons, mul_add, ha, hb, Int.cast_add]⟩

theorem trueMean_grid {D : Nat} (hne : r.questions ≠ [])
    (hD : ∀ q ∈ r.questions, q.correctOptions.length ∣ D)
    (hkeys : ∀ q ∈ r.questions, q.correctOptions ≠ []) (response : OrderedMap (List String)) :
    ∃ z : Int, ((2 * r.questions.length * D : Nat) : ℚ) * (r.trueMean response + 1 / 2) = z := by
  obtain ⟨z, hz⟩ : ∃ z : Int, (D : ℚ) * (r.questions.map (fun q =>
      ((max 0 (marks response q) : Int) : ℚ) / q.correctOptions.length * 100)).sum = z := by
    apply exists_int_mul_sum
    intro v hv
    obtain ⟨q, hq, rfl⟩ := List.mem_map.mp hv
    obtain ⟨k, rfl⟩ := hD q hq
    have hpos : (q.correctOptions.length : ℚ) ≠ 0 := by
      exact_mod_cast (List.length_pos_iff.mpr (hkeys q hq)).ne'
    refine ⟨k * max 0 (marks response q) * 100, ?_⟩
    push_cast
    field_simp
  have hlength : (r.questions.length : ℚ) ≠ 0 := by
    exact_mod_cast (List.length_pos_iff.mpr hne).ne'
  refine ⟨2 * z + r.questions.length * D, ?_⟩
  rw [trueMean]
  generalize (r.questions.map (fun q =>
    ((max 0 (marks response q) : Int) : ℚ) / q.correctOptions.length * 100)).sum = points at hz ⊢
  push_cast
  rw [← hz]
  field_simp

theorem score_rounds_mean
    (hkeys : ∀ q ∈ r.questions, q.correctOptions ≠ [] ∧ q.correctOptions.Nodup)
    (response : OrderedMap (List String)) :
    (r.grade response).score.exact = ⌊r.trueMean response + 1 / 2⌋ ∧
      (Modest r response → ∃ w : ℚ,
        (r.grade response).score.toFloat = Float.ofInt ⌊w⌋ ∧
          |w - (r.trueMean response + 1 / 2)| ≤ (r.questions.length + 4) / 2 ^ 44 ∧
          ∀ D : Nat, 0 < D → (∀ q ∈ r.questions, q.correctOptions.length ∣ D) →
            2 * r.questions.length * D * (r.questions.length + 4) < 2 ^ 44 →
              ⌊w⌋ = ⌊r.trueMean response + 1 / 2⌋ ∨
                (⌊r.trueMean response + 1 / 2⌋ : ℚ) = r.trueMean response + 1 / 2 ∧
                  ⌊w⌋ = ⌊r.trueMean response + 1 / 2⌋ - 1) := by
  have hmean := exactMean_eq_trueMean (fun q hq => (hkeys q hq).2) response
  constructor
  · rw [exact_score, hmean]
    rfl
  · intro hsize
    obtain ⟨w, hfloat, hnear⟩ := score_near_mean hkeys hsize
    rw [hmean] at hnear
    refine ⟨w, hfloat, hnear, fun D hD hdvd hsmall => ?_⟩
    obtain hnil | hne := eq_or_ne r.questions []
    · have hzero : r.trueMean response = 0 := by simp [trueMean, hnil]
      rw [hzero, zero_add] at hnear ⊢
      rw [hnil, List.length_nil] at hnear
      refine floor_eq_of_near (n := 2) (z := 1) (by norm_num) (by norm_num) ?_
      norm_num at hnear ⊢
      linarith
    · obtain ⟨z, hz⟩ := trueMean_grid hne hdvd (fun q hq => (hkeys q hq).1) response
      have hpos : 0 < 2 * r.questions.length * D := by
        have := List.length_pos_iff.mpr hne
        positivity
      have hsmall' : ((2 * r.questions.length * D : Nat) : ℚ) * (r.questions.length + 4) <
          2 ^ 44 := by
        exact_mod_cast hsmall
      refine floor_eq_of_near hpos hz ?_
      calc _ ≤ ((2 * r.questions.length * D : Nat) : ℚ) * ((r.questions.length + 4) / 2 ^ 44) := by
            gcongr
        _ < 1 := by
            rw [← mul_div_assoc, div_lt_one (by norm_num)]
            exact hsmall'

def cubes : Question := ⟨"Cubes", ["8"], ["8", "9"]⟩

def evens : Question := ⟨"Even numbers", ["2", "4"], ["2", "4", "5"]⟩

def primes : Question := ⟨"Primes", ["2", "3", "5"], ["2", "3", "5", "9"]⟩

def squares : Question := ⟨"Squares", ["1", "4", "9"], ["1", "4", "8", "9"]⟩

def numbers : Recognition := ⟨[cubes, evens, primes, squares]⟩

def numbersPicked : OrderedMap (List String) :=
  .ofList [("Cubes", ["8"]), ("Even numbers", ["2", "4", "5"]), ("Primes", ["2", "3"]),
    ("Squares", ["1", "4", "8", "9"])]

theorem score_rounds_mean_numbers :
    (∀ q ∈ numbers.questions, q.correctOptions ≠ [] ∧ q.correctOptions.Nodup) ∧
      Modest numbers numbersPicked ∧ numbers.trueMean numbersPicked = 125 / 2 ∧
      (numbers.grade numbersPicked).score.exact = 63 ∧
      ((numbers.grade numbersPicked).score.toFloat = Float.ofInt 63 ∨
        (numbers.grade numbersPicked).score.toFloat = Float.ofInt 62) := by
  have hkeys : ∀ q ∈ numbers.questions, q.correctOptions ≠ [] ∧ q.correctOptions.Nodup := by decide
  have hmodest : Modest numbers numbersPicked := by
    refine ⟨by decide, by decide, ?_⟩
    decide +kernel
  have hmean : numbers.trueMean numbersPicked = 125 / 2 := by decide +kernel
  have hfloor : ⌊(125 / 2 + 1 / 2 : ℚ)⌋ = 63 := by norm_num
  obtain ⟨hexact, hfloats⟩ := score_rounds_mean hkeys numbersPicked
  obtain ⟨w, hfloat, -, hgrid⟩ := hfloats hmodest
  rw [hmean, hfloor] at hexact hgrid
  refine ⟨hkeys, hmodest, hmean, by exact_mod_cast hexact, ?_⟩
  rw [hfloat]
  rcases hgrid 6 (by decide) (by decide) (by decide) with h | ⟨-, h⟩
  · exact Or.inl (by rw [h])
  · exact Or.inr (by rw [h]; rfl)

theorem score_below_rounded_mean :
    ⌊numbers.trueMean numbersPicked + 1 / 2⌋ = 63 ∧
      (numbers.grade numbersPicked).score.toFloat = Float.ofInt 62 ∧
      Float.ofInt 62 ≠ Float.ofInt 63 := by
  refine ⟨?_, ?_, ?_⟩
  · decide +kernel
  · decide +kernel
  · decide +kernel

end Recognition

end Worksheet
