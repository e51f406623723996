import SovereignInference.SinNode.Recommend
import Mathlib.Data.List.Sort
import Mathlib.Tactic.FieldSimp
import Mathlib.Tactic.NormNum
import Mathlib.Tactic.Positivity

/-!
# What is recommended

The memory that a model needs grows with the bits of its quant, so the last
quant that fits is the largest one, and where the smallest does not fit none
does.  A model that fits scores one or more, and one that does not fit less.
-/

namespace SovereignInference.SinNode

open Python Effects Arithmetic

theorem halfEven_intCast (n : ℤ) : halfEven (n : ℚ) = n := by
  unfold halfEven
  rw [Int.fract_intCast, Int.floor_intCast]
  norm_num

variable {places : Nat} {x : ℚ} {n : ℤ}

theorem le_roundTo (below : n / 10 ^ places ≤ x) :
    n / 10 ^ places ≤ roundTo places x := by
  have scale : (0 : ℚ) < 10 ^ places := by positivity
  have order : (n : ℚ) ≤ x * 10 ^ places := (div_le_iff₀ scale).mp below
  have rounded := halfEven_mono order
  rw [halfEven_intCast] at rounded
  unfold roundTo
  exact div_le_div_of_nonneg_right (by exact_mod_cast rounded) scale.le

theorem roundTo_le (above : x ≤ n / 10 ^ places) :
    roundTo places x ≤ n / 10 ^ places := by
  have scale : (0 : ℚ) < 10 ^ places := by positivity
  have order : x * 10 ^ places ≤ (n : ℚ) := (le_div_iff₀ scale).mp above
  have rounded := halfEven_mono order
  rw [halfEven_intCast] at rounded
  unfold roundTo
  exact div_le_div_of_nonneg_right (by exact_mod_cast rounded) scale.le

theorem roundTo_nonneg (nonneg : 0 ≤ x) : 0 ≤ roundTo places x := by
  have rounded := @le_roundTo places x 0 (by simpa using nonneg)
  simpa using rounded

/-- No memory of the node is negative. -/
structure NonnegMemory (profile : HardwareProfile) : Prop where
  total : 0 ≤ profile.ramTotalGb
  available : 0 ≤ profile.ramAvailableGb
  vram : ∀ gpu ∈ profile.gpus, ∀ vram, gpu.vramTotalGb = some vram → 0 ≤ vram

theorem given_eq_some {value : Option ℚ} {q : ℚ}
    (isGiven : given value = some q) : value = some q := by
  cases value with
  | none => cases isGiven
  | some r =>
      simp only [given] at isGiven
      split_ifs at isGiven
      exact isGiven

private theorem primaryGpu_mem {profile : HardwareProfile} {gpu : GpuInfo}
    (primary : profile.primaryGpu = some gpu) : gpu ∈ profile.gpus := by
  have kept : ∀ (rest : List GpuInfo) (best : GpuInfo),
      rest.foldl (fun best gpu =>
        if HardwareProfile.vramOf best < HardwareProfile.vramOf gpu then gpu
        else best) best ∈ best :: rest := by
    intro rest
    induction rest with
    | nil => simp
    | cons gpu rest induction =>
        intro best
        rw [List.foldl_cons]
        rcases List.mem_cons.mp (induction _) with same | later
        · rw [same]
          split_ifs <;> simp
        · simp [later]
  unfold HardwareProfile.primaryGpu at primary
  cases isList : profile.gpus with
  | nil =>
      rw [isList] at primary
      cases primary
  | cons first rest =>
      rw [isList] at primary
      cases primary
      exact kept rest first

theorem usableMemoryGb_nonneg {profile : HardwareProfile}
    (memory : NonnegMemory profile) : 0 ≤ profile.usableMemoryGb := by
  have available : 0 ≤ roundTo 1 profile.ramAvailableGb :=
    roundTo_nonneg memory.available
  unfold HardwareProfile.usableMemoryGb
  split_ifs with unified
  · have total := memory.total
    exact roundTo_nonneg (by positivity)
  · dsimp only
    cases found : profile.primaryGpu.bind fun gpu => given gpu.vramTotalGb with
    | none => exact available
    | some vram =>
        dsimp only
        split_ifs
        · obtain ⟨gpu, primary, isGiven⟩ := Option.bind_eq_some_iff.mp found
          exact memory.vram gpu (primaryGpu_mem primary) vram
            (given_eq_some isGiven)
        · exact available

/-- A catalog model as it can be offered. -/
structure ValidModel (model : CatalogModel) : Prop where
  quants : model.quants ≠ []
  params : 0 < model.paramsB
  bits : ∀ quant ∈ model.quants, 0 < quant.bits
  quality : 0 ≤ model.qualityScore ∧ model.qualityScore ≤ 1

variable {model : CatalogModel} {usableGb : ℚ} {context : ℤ}

/-- The model fits with the quant. -/
def Fits (model : CatalogModel) (usableGb : ℚ) (context : ℤ)
    (quant : QuantOption) : Prop :=
  (estimateFor model quant context).totalGb ≤ usableGb

/-- More bits need more memory. -/
theorem Fits.fewer {quant other : QuantOption}
    (fits : Fits model usableGb context other) (params : 0 < model.paramsB)
    (fewer : quant.bits ≤ other.bits) : Fits model usableGb context quant := by
  have weights : model.paramsB * quant.bits ≤ model.paramsB * other.bits :=
    mul_le_mul_of_nonneg_left fewer params.le
  unfold Fits estimateFor at fits ⊢
  dsimp only at fits ⊢
  linarith

/-- The loop keeps the last quant that fits, which has the most bits. -/
theorem foldl_bestFit {quants : List QuantOption}
    (ascending : quants.Pairwise fun a b => a.bits ≤ b.bits)
    (best : Option (QuantOption × MemoryEstimate)) :
    let result := quants.foldl (fun best quant =>
      let estimate := estimateFor model quant context
      if estimate.totalGb ≤ usableGb then some (quant, estimate)
      else best) best
    ((∀ quant ∈ quants, ¬ Fits model usableGb context quant) ∧
        result = best) ∨
      ∃ quant ∈ quants, Fits model usableGb context quant ∧
        result = some (quant, estimateFor model quant context) ∧
        ∀ other ∈ quants, Fits model usableGb context other →
          other.bits ≤ quant.bits := by
  induction quants generalizing best with
  | nil => exact Or.inl ⟨by simp, rfl⟩
  | cons quant rest induction =>
      obtain ⟨least, tail⟩ := List.pairwise_cons.mp ascending
      dsimp only at induction ⊢
      rw [List.foldl_cons]
      rcases induction tail (if (estimateFor model quant context).totalGb ≤
          usableGb then some (quant, estimateFor model quant context)
          else best) with ⟨noneFits, same⟩ | ⟨found, inRest, fits, same, most⟩
      · rw [same]
        by_cases here : Fits model usableGb context quant
        · right
          refine ⟨quant, List.mem_cons_self, here, if_pos here, ?_⟩
          intro other member otherFits
          rcases List.mem_cons.mp member with rfl | inRest
          · exact le_refl _
          · exact absurd otherFits (noneFits other inRest)
        · left
          exact ⟨List.forall_mem_cons.mpr ⟨here, noneFits⟩, if_neg here⟩
      · right
        refine ⟨found, List.mem_cons_of_mem _ inRest, fits, same, ?_⟩
        intro other member otherFits
        rcases List.mem_cons.mp member with rfl | inRest'
        · exact least found inRest
        · exact most other inRest' otherFits

/-- Few enough bits, or more because the model has no other quant. -/
def Considered (model : CatalogModel) (quant : QuantOption) : Prop :=
  quant.bits ≤ qualitySaturationBits ∨
    ∀ other ∈ model.quants, qualitySaturationBits < other.bits

/-- The quant a model is offered with, and whether it fits. -/
structure Selected (model : CatalogModel) (usableGb : ℚ) (context : ℤ)
    (quant : QuantOption) (fits : Bool) : Prop where
  mem : quant ∈ model.quants
  fits_iff : fits = true ↔ Fits model usableGb context quant
  considered : fits = true → Considered model quant
  largest : fits = true → ∀ other ∈ model.quants,
    Fits model usableGb context other → Considered model other →
      other.bits ≤ quant.bits
  noneFits : fits = false → ∀ other ∈ model.quants,
    ¬ Fits model usableGb context other

theorem byBits_perm (model : CatalogModel) :
    (byBits model).Perm model.quants :=
  List.perm_insertionSort _ model.quants

instance : Std.Total fun a b : QuantOption => a.bits ≤ b.bits :=
  ⟨fun a b => le_total a.bits b.bits⟩

instance : IsTrans QuantOption fun a b => a.bits ≤ b.bits :=
  ⟨fun _ _ _ first second => le_trans first second⟩

theorem byBits_ascending (model : CatalogModel) :
    (byBits model).Pairwise fun a b => a.bits ≤ b.bits :=
  List.pairwise_insertionSort _ model.quants

theorem considered_ascending (model : CatalogModel) :
    (considered model).Pairwise fun a b => a.bits ≤ b.bits := by
  unfold considered
  dsimp only
  split_ifs
  · exact byBits_ascending model
  · exact (byBits_ascending model).filter _

private theorem mem_considered {quant : QuantOption} :
    quant ∈ considered model ↔
      quant ∈ model.quants ∧ Considered model quant := by
  have listed : ∀ other, other ∈ byBits model ↔ other ∈ model.quants :=
    fun other => (byBits_perm model).mem_iff
  unfold considered Considered
  dsimp only
  split_ifs with none
  · have many : ∀ other ∈ model.quants,
        qualitySaturationBits < other.bits := by
      intro other member
      have dropped := List.filter_eq_nil_iff.mp none other
        ((listed other).mpr member)
      simpa using dropped
    rw [listed]
    exact (and_iff_left (Or.inr many)).symm
  · obtain ⟨few, member⟩ := List.exists_mem_of_ne_nil _ none
    obtain ⟨isQuant, small⟩ := List.mem_filter.mp member
    have notMany : ¬ ∀ other ∈ model.quants,
        qualitySaturationBits < other.bits := by
      intro many
      have above := many few ((listed few).mp isQuant)
      exact absurd (of_decide_eq_true small) (not_le.mpr above)
    rw [List.mem_filter, listed, decide_eq_true_eq, or_iff_left notMany]

/-- **The largest quant that fits is selected, or the smallest as one that does
not.** -/
theorem selectQuant_spec (valid : ValidModel model) (usableGb : ℚ)
    (context : ℤ) :
    ∃ quant fits, selectQuant model usableGb context =
        .ok (quant, estimateFor model quant context, fits) ∧
      Selected model usableGb context quant fits := by
  have loop := @foldl_bestFit model usableGb context (considered model)
    (considered_ascending model) none
  unfold selectQuant bestFit
  dsimp only at loop
  rcases loop with ⟨noneFits, same⟩ | ⟨quant, member, fits, same, most⟩
  · obtain ⟨smallest, rest, isList⟩ : ∃ smallest rest,
        byBits model = smallest :: rest := by
      apply List.exists_cons_of_ne_nil
      intro empty
      have perm := byBits_perm model
      rw [empty] at perm
      exact valid.quants (List.nil_perm.mp perm)
    have ascending := byBits_ascending model
    rw [isList] at ascending
    have least : ∀ other ∈ model.quants, smallest.bits ≤ other.bits := by
      intro other member
      have inList := (byBits_perm model).mem_iff.mpr member
      rw [isList] at inList
      rcases List.mem_cons.mp inList with rfl | inRest
      · exact le_refl _
      · exact (List.pairwise_cons.mp ascending).1 other inRest
    have isQuant : smallest ∈ model.quants := by
      apply (byBits_perm model).mem_iff.mp
      rw [isList]
      exact List.mem_cons_self
    -- the smallest is considered whichever quants are
    have small : Considered model smallest := by
      unfold Considered
      by_contra neither
      push Not at neither
      obtain ⟨above, other, member, below⟩ := neither
      exact absurd (above.trans_le (least other member)) (not_lt.mpr below)
    have notSmallest := noneFits smallest (mem_considered.mpr ⟨isQuant, small⟩)
    have noFit : ∀ other ∈ model.quants,
        ¬ Fits model usableGb context other := by
      intro other member otherFits
      exact notSmallest (otherFits.fewer valid.params (least other member))
    rw [same, isList]
    refine ⟨smallest, false, rfl, isQuant, ?_, ?_, ?_, fun _ => noFit⟩
    · exact iff_of_false (by decide) notSmallest
    · intro isTrue
      cases isTrue
    · intro isTrue
      cases isTrue
  · obtain ⟨isQuant, few⟩ := mem_considered.mp member
    rw [same]
    refine ⟨quant, true, rfl, isQuant, iff_of_true rfl fits, fun _ => few,
      ?_, ?_⟩
    · intro _ other isOther otherFits otherFew
      exact most other (mem_considered.mpr ⟨isOther, otherFew⟩) otherFits
    · intro isFalse
      cases isFalse

variable {estimate : MemoryEstimate} {fits : Bool}

/-- A model fits exactly when its headroom is one or more. -/
theorem headroomRatio_iff (needs : 0 < estimate.totalGb)
    (fits_iff : fits = true ↔ estimate.totalGb ≤ usableGb) :
    fits = true ↔ 1 ≤ headroomRatio estimate fits usableGb := by
  unfold headroomRatio
  rw [if_pos needs]
  dsimp only
  cases fits with
  | true =>
      have enough := fits_iff.mp rfl
      have ratio : ((1000 : ℤ) : ℚ) / 10 ^ 3 ≤ usableGb / estimate.totalGb := by
        rw [le_div_iff₀ needs]
        norm_num
        exact enough
      have rounded := le_roundTo ratio
      norm_num at rounded
      rw [if_neg (by simp)]
      exact iff_of_true rfl rounded
  | false =>
      refine iff_of_false (by decide) ?_
      split_ifs with above
      · norm_num
      · intro atLeast
        exact above ⟨rfl, atLeast⟩

theorem headroomRatio_nonneg (usable : 0 ≤ usableGb) :
    0 ≤ headroomRatio estimate fits usableGb := by
  unfold headroomRatio
  dsimp only
  split_ifs with needs
  · norm_num
  · exact roundTo_nonneg (div_nonneg usable needs.le)
  · exact le_refl 0

theorem predictTps_nonneg (paramsB : ℚ) (accelerator : Accelerator)
    (quantBits : ℚ) : 0 ≤ predictTps paramsB accelerator quantBits := by
  unfold predictTps
  split_ifs with none
  · exact le_refl 0
  · have above : 0 < paramsB := not_le.mp none
    have base : 0 < baseTps accelerator := by
      cases accelerator <;> norm_num [baseTps]
    apply roundTo_nonneg
    positivity

theorem speedWeightOf_range (latency : Text) :
    0 ≤ speedWeightOf latency ∧ speedWeightOf latency ≤ 75 / 100 := by
  unfold speedWeightOf
  split_ifs <;> norm_num

variable {headroom quality tps speedWeight : ℚ}

theorem blendedScore_fits (headroomNonneg : 0 ≤ headroom)
    (qualityNonneg : 0 ≤ quality) (tpsNonneg : 0 ≤ tps)
    (speed : 0 ≤ speedWeight ∧ speedWeight ≤ 75 / 100) :
    1 ≤ blendedScore true headroom quality tps speedWeight := by
  unfold blendedScore
  dsimp only
  have rest : max 0 (75 / 100 - speedWeight) = 75 / 100 - speedWeight :=
    max_eq_right (by linarith [speed.2])
  rw [rest, if_pos rfl]
  have fit : 0 ≤ min (headroom / 2) 1 := le_min (by positivity) (by norm_num)
  have swift : 0 ≤ min (tps / 200) 1 := le_min (by positivity) (by norm_num)
  have qualityPart : 0 ≤ (75 / 100 - speedWeight) * quality :=
    mul_nonneg (by linarith [speed.2]) qualityNonneg
  have speedPart : 0 ≤ speedWeight * min (tps / 200) 1 :=
    mul_nonneg speed.1 swift
  have rounded := @le_roundTo 4 (1 + ((1 - speedWeight -
    (75 / 100 - speedWeight)) * min (headroom / 2) 1 +
      (75 / 100 - speedWeight) * quality +
        speedWeight * min (tps / 200) 1)) 10000 (by
    norm_num
    linarith)
  norm_num at rounded ⊢
  exact rounded

theorem blendedScore_unfit (below : headroom < 1) (qualityAtMost : quality ≤ 1)
    (speed : 0 ≤ speedWeight ∧ speedWeight ≤ 75 / 100) :
    blendedScore false headroom quality tps speedWeight ≤ 1 := by
  unfold blendedScore
  dsimp only
  have rest : max 0 (75 / 100 - speedWeight) = 75 / 100 - speedWeight :=
    max_eq_right (by linarith [speed.2])
  rw [rest, if_neg (by decide)]
  have fit : min (headroom / 2) 1 ≤ 1 / 2 :=
    (min_le_left _ _).trans (by linarith)
  have qualityPart : (75 / 100 - speedWeight) * quality ≤
      75 / 100 - speedWeight :=
    mul_le_of_le_one_right (by linarith [speed.2]) qualityAtMost
  have speedPart : speedWeight * min (tps / 200) 1 ≤ speedWeight :=
    mul_le_of_le_one_right speed.1 (min_le_right _ _)
  have rounded := @roundTo_le 4 (0 + ((1 - speedWeight -
    (75 / 100 - speedWeight)) * min (headroom / 2) 1 +
      (75 / 100 - speedWeight) * quality +
        speedWeight * min (tps / 200) 1)) 10000 (by
    norm_num
    linarith)
  norm_num at rounded ⊢
  exact rounded

section

variable {lower : Text → Text} {profile : HardwareProfile}
  {catalog : List CatalogModel} {entry : Recommendation}

/-- What a recommendation says of its model. -/
structure Sound (profile : HardwareProfile) (model : CatalogModel)
    (entry : Recommendation) : Prop where
  selected : ∃ quant, entry.quant = quant.name ∧
    entry.estimate = estimateFor model quant model.defaultContext ∧
    Selected model profile.usableMemoryGb model.defaultContext quant entry.fits
  fits_iff : 0 < entry.estimate.totalGb →
    (entry.fits = true ↔ 1 ≤ entry.headroomRatio)
  needsNothing : entry.estimate.totalGb ≤ 0 →
    entry.fits = true ∧ entry.headroomRatio = 0
  above : entry.fits = true → 1 ≤ entry.score
  below : entry.fits = false → entry.score ≤ 1

theorem recommendModel_sound (memory : NonnegMemory profile)
    (valid : ValidModel model) (latency : Text) :
    ∃ entry, recommendModel lower profile (speedWeightOf latency) model =
      .ok entry ∧ Sound profile model entry := by
  have usable := usableMemoryGb_nonneg memory
  obtain ⟨quant, fits, selects, selected⟩ := selectQuant_spec valid
    profile.usableMemoryGb model.defaultContext
  have speed := speedWeightOf_range latency
  unfold recommendModel
  simp only [selects, ok_bind]
  refine ⟨_, rfl, ⟨quant, rfl, rfl, selected⟩, ?_, ?_, ?_, ?_⟩
  · intro needs
    exact headroomRatio_iff needs selected.fits_iff
  · intro nothing
    refine ⟨selected.fits_iff.mpr (nothing.trans usable), ?_⟩
    exact if_neg (not_lt.mpr nothing)
  · rintro rfl
    exact blendedScore_fits (headroomRatio_nonneg usable) valid.quality.1
      (predictTps_nonneg _ _ _) speed
  · rintro rfl
    have doesNot : ¬ Fits model profile.usableMemoryGb model.defaultContext
        quant := mt selected.fits_iff.mpr (by decide)
    have needs : 0 < (estimateFor model quant model.defaultContext).totalGb :=
      usable.trans_lt (not_le.mp doesNot)
    have headroom := mt (headroomRatio_iff needs selected.fits_iff).mpr
      (by decide)
    exact blendedScore_unfit (not_le.mp headroom) valid.quality.2 speed

instance : Std.Total fun a b : Recommendation => rankKey b ≤ rankKey a :=
  ⟨fun a b => le_total (rankKey b) (rankKey a)⟩

instance : IsTrans Recommendation fun a b => rankKey b ≤ rankKey a :=
  ⟨fun _ _ _ first second => le_trans second first⟩

/-- Models that fit come first, and no score rises. -/
def InOrder (a b : Recommendation) : Prop :=
  (b.fits = true → a.fits = true) ∧ b.score ≤ a.score

theorem inOrder_of_rankKey {a b : Recommendation} {model other : CatalogModel}
    (sound : Sound profile model a) (sound' : Sound profile other b)
    (order : rankKey b ≤ rankKey a) : InOrder a b := by
  unfold rankKey at order
  rw [Prod.Lex.toLex_le_toLex] at order
  rcases order with lower | ⟨same, scores⟩
  · obtain ⟨unfit, fits⟩ := Bool.lt_iff.mp lower
    refine ⟨fun _ => fits, ?_⟩
    exact (sound'.below unfit).trans (sound.above fits)
  · refine ⟨?_, scores⟩
    intro fits
    exact same.symm.trans fits

private theorem eligible_mem {task : Text} {commercialRequired : Bool}
    (member : model ∈ eligible lower task commercialRequired catalog) :
    model ∈ catalog ∧ task ∈ model.tasks ∧
      (commercialRequired = true → isNonCommercial lower model = false) := by
  obtain ⟨inCatalog, passes⟩ := List.mem_filter.mp member
  rw [Bool.and_eq_true, decide_eq_true_eq] at passes
  refine ⟨inCatalog, passes.1, ?_⟩
  rintro rfl
  simpa using passes.2

/-- **Recommendations are the best of the eligible models**, in order, and each
is sound. -/
theorem recommend_consistent (memory : NonnegMemory profile)
    (valid : ∀ model ∈ catalog, ValidModel model) (task latency : Text)
    (commercialRequired : Bool) (topK : ℤ) :
    (topK < 1 → recommend lower profile task commercialRequired latency topK
      catalog = .error .valueError) ∧
    (1 ≤ topK → ∃ listed ranked recommended : List Recommendation,
      (eligible lower task commercialRequired catalog).mapM
        (recommendModel lower profile (speedWeightOf latency)) = .ok listed ∧
      ranked.Perm listed ∧ recommended = ranked.take topK.toNat ∧
      recommend lower profile task commercialRequired latency topK catalog =
        .ok recommended ∧
      recommended.length = min topK.toNat
        (eligible lower task commercialRequired catalog).length ∧
      (∀ chosen ∈ recommended, ∀ other ∈ ranked.drop topK.toNat,
        rankKey other ≤ rankKey chosen) ∧
      recommended.Pairwise InOrder ∧
      ∀ entry ∈ recommended,
        ∃ model ∈ eligible lower task commercialRequired catalog,
          recommendModel lower profile (speedWeightOf latency) model =
            .ok entry ∧ Sound profile model entry ∧
          (commercialRequired = true →
            isNonCommercial lower model = false)) := by
  have offers : ∀ model ∈ eligible lower task commercialRequired catalog,
      ∃ entry, recommendModel lower profile (speedWeightOf latency) model =
        .ok entry ∧ Sound profile model entry := by
    intro model member
    exact recommendModel_sound memory (valid model (eligible_mem member).1)
      latency
  constructor
  · intro tooFew
    unfold recommend
    rw [if_pos tooFew]
    rfl
  · intro enough
    obtain ⟨listed, mapped⟩ := mapM_isOk.mpr fun model member =>
      (offers model member).imp fun _ found => found.1
    have pairs := mapM_forall₂ mapped
    have sources : ∀ entry ∈ listed,
        ∃ model ∈ eligible lower task commercialRequired catalog,
          recommendModel lower profile (speedWeightOf latency) model =
            .ok entry ∧ Sound profile model entry := by
      intro entry member
      obtain ⟨model, isModel, same⟩ := forall₂_source pairs member
      obtain ⟨other, isOther, sound⟩ := offers model isModel
      rw [same, Except.ok.injEq] at isOther
      subst isOther
      exact ⟨model, isModel, same, sound⟩
    let ranked := listed.insertionSort fun a b => rankKey b ≤ rankKey a
    have perm : ranked.Perm listed := List.perm_insertionSort _ listed
    have sorted : ranked.Pairwise fun a b => rankKey b ≤ rankKey a :=
      List.pairwise_insertionSort _ listed
    have inListed : ∀ entry ∈ ranked.take topK.toNat, entry ∈ listed :=
      fun entry member => perm.mem_iff.mp (List.mem_of_mem_take member)
    refine ⟨listed, ranked, ranked.take topK.toNat, mapped, perm, rfl, ?_, ?_,
      ?_, ?_, ?_⟩
    · unfold recommend
      rw [if_neg (not_lt.mpr enough)]
      simp only [mapped, ok_bind]
      rfl
    · rw [List.length_take, perm.length_eq, pairs.length_eq]
    · intro chosen isChosen other isOther
      rw [← List.take_append_drop topK.toNat ranked] at sorted
      exact (List.pairwise_append.mp sorted).2.2 chosen isChosen other isOther
    · refine (sorted.sublist (List.take_sublist _ _)).imp_of_mem ?_
      intro a b inFirst inSecond order
      obtain ⟨model, _, _, sound⟩ := sources a (inListed a inFirst)
      obtain ⟨other, _, _, sound'⟩ := sources b (inListed b inSecond)
      exact inOrder_of_rankKey sound sound' order
    · intro entry member
      obtain ⟨model, isModel, same, sound⟩ :=
        sources entry (inListed entry member)
      exact ⟨model, isModel, same, sound, (eligible_mem isModel).2.2⟩

/-- A node with so much free memory and no GPU. -/
def cpuNode (ramAvailableGb : ℚ) : HardwareProfile where
  ramTotalGb := ramAvailableGb
  ramAvailableGb := ramAvailableGb
  gpus := []
  accelerator := .cpu
  unifiedMemory := false

/-- A model of one billion parameters with three quants. -/
def smallModel (defaultContext : ℤ) : CatalogModel where
  modelId := "small"
  displayName := "Small"
  paramsB := 1
  quants := [⟨"F16", 16⟩, ⟨"Q4", 45 / 10⟩, ⟨"Q8", 8⟩]
  tasks := ["coding"]
  license := "mit"
  recommendedRuntimes := []
  defaultContext := defaultContext
  nLayers := none
  hiddenSize := none
  nHeads := none
  nKvHeads := none
  commercialUse := true
  qualityScore := 1 / 2

theorem smallModel_valid (defaultContext : ℤ) :
    ∀ model ∈ [smallModel defaultContext], ValidModel model := by
  intro model member
  rw [List.mem_singleton.mp member]
  refine ⟨by simp [smallModel], by norm_num [smallModel], ?_, ?_⟩
  · simp only [smallModel, List.forall_mem_cons]
    norm_num
  · norm_num [smallModel]

theorem cpuNode_memory {ramAvailableGb : ℚ} (nonneg : 0 ≤ ramAvailableGb) :
    NonnegMemory (cpuNode ramAvailableGb) :=
  ⟨nonneg, nonneg, by simp [cpuNode]⟩

theorem recommend_consistent_small :
    ∃ recommended, recommend asciiLower (cpuNode 8) "coding" true "low" 3
        [smallModel 4096] = .ok recommended ∧ recommended.length = 1 ∧
      ∀ entry ∈ recommended, ∃ model, Sound (cpuNode 8) model entry := by
  have memory : NonnegMemory (cpuNode 8) := cpuNode_memory (by norm_num)
  obtain ⟨_, _, recommended, _, _, _, isOk, length, _, _, sources⟩ :=
    (@recommend_consistent asciiLower _ _ memory (smallModel_valid 4096)
      "coding" "low" true 3).2 (by decide)
  have one : (eligible asciiLower "coding" true [smallModel 4096]).length =
      1 := by
    decide +kernel
  rw [one] at length
  refine ⟨recommended, isOk, length, ?_⟩
  intro entry member
  obtain ⟨model, _, _, sound, _⟩ := sources entry member
  exact ⟨model, sound⟩

/-- A model whose estimate is not positive fits, with a headroom of zero. -/
theorem negative_context :
    NonnegMemory (cpuNode 8) ∧
    (∀ model ∈ [smallModel (-1000000)], ValidModel model) ∧
    ∃ entry, recommend asciiLower (cpuNode 8) "coding" false "balanced" 1
        [smallModel (-1000000)] = .ok [entry] ∧
      entry.fits = true ∧ entry.headroomRatio = 0 := by
  have memory : NonnegMemory (cpuNode 8) := cpuNode_memory (by norm_num)
  refine ⟨memory, smallModel_valid _, ?_⟩
  obtain ⟨entry, offered, sound⟩ := @recommendModel_sound
    (smallModel (-1000000)) asciiLower (cpuNode 8) memory
    (smallModel_valid _ _ List.mem_cons_self) "balanced"
  have isEligible : eligible asciiLower "coding" false
      [smallModel (-1000000)] = [smallModel (-1000000)] := rfl
  have negative : entry.estimate.totalGb ≤ 0 := by
    obtain ⟨quant, _, isEstimate, selected⟩ := sound.selected
    have few : quant.bits ≤ 16 := by
      have listed := selected.mem
      simp only [smallModel, List.mem_cons, List.not_mem_nil, or_false]
        at listed
      rcases listed with rfl | rfl | rfl <;> norm_num
    rw [isEstimate]
    simp only [estimateFor, kvCacheGb, smallModel, given, overheadGb]
    norm_num
    linarith
  refine ⟨entry, ?_, sound.needsNothing negative⟩
  unfold recommend
  simp only [isEligible, List.mapM_cons, offered, ok_bind]
  rfl

end

end SovereignInference.SinNode
