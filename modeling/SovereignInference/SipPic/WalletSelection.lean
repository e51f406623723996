import SovereignInference.Python.DecimalContext
import SovereignInference.SipPic.Wallet

/-!
# What a selection picks

Where sums are exact, a selection takes the shortest run of the vouchers of a
unit that reaches the amount, in the order of the wallet, and leaves the others
where they are; a balance that is too low leaves everything.
-/

namespace SovereignInference.SipPic.Wallet

open Python Effects SipProtocol

def isOfUnit (unit : Text) (held : HeldVoucher) : Bool :=
  (held.voucher.get "unit").isStr unit

/-- The vouchers of a unit, in the order of the wallet. -/
def ofUnit (unit : Text) (held : List HeldVoucher) : List HeldVoucher :=
  held.filter (isOfUnit unit)

/-- The denomination of a voucher, as an exact number. -/
def faceAmount (held : HeldVoucher) : ℚ :=
  match heldAmount held.voucher with
  | .ok amount => amount.toRat
  | .error _ => 0

def totalOf (held : List HeldVoucher) : ℚ := (held.map faceAmount).sum

/-- Every voucher has a number for a denomination. -/
def HasDecimals (held : List HeldVoucher) : Prop :=
  ∀ voucher ∈ held, ∃ amount, heldAmount voucher.voucher = .ok amount ∧
    amount.IsFinite

section

variable (precision : Precision)

/-- The sums of the parts of the wallet are numbers of the context. -/
def FitsContext (held : List HeldVoucher) : Prop :=
  match precision with
  | .exact => True
  | .digits count => 0 < count ∧ ∀ (unit : Text) (part : List HeldVoucher),
      part.Sublist held → Decimal.Fits count (totalOf (ofUnit unit part))

/-- The context adds up every part of the wallet without rounding. -/
def SumsExact (held : List HeldVoucher) : Prop :=
  ∀ (unit : Text) (part : List HeldVoucher), part.Sublist held →
    ∃ total, balance precision unit part .zero = .ok total ∧
      total.IsFinite ∧ total.toRat = totalOf (ofUnit unit part)

/-- `select`, with the wallet after it: nothing is assigned before the
vouchers have been picked. -/
def selecting (held : List HeldVoucher) (amount unit : Text) :
    Except PyExc (List HeldVoucher) × List HeldVoucher :=
  match select precision held amount unit with
  | .ok (picked, rest) => (.ok picked, rest)
  | .error error => (.error error, held)

end

/-- The shortest prefix of a list of vouchers that is worth an amount. -/
def IsShortestPrefix (vouchers : List HeldVoucher) (amount : ℚ)
    (picked : List HeldVoucher) : Prop :=
  ∃ count ≤ vouchers.length, picked = vouchers.take count ∧
    amount ≤ totalOf picked ∧
    ∀ fewer < count, totalOf (vouchers.take fewer) < amount

variable {precision : Precision} {held before after : List HeldVoucher}
  {unit amount : Text}

@[simp] theorem totalOf_nil : totalOf [] = 0 := rfl

@[simp] theorem totalOf_cons (voucher : HeldVoucher)
    (rest : List HeldVoucher) :
    totalOf (voucher :: rest) = faceAmount voucher + totalOf rest := by
  simp [totalOf]

@[simp] theorem totalOf_append (front rest : List HeldVoucher) :
    totalOf (front ++ rest) = totalOf front + totalOf rest := by
  simp [totalOf]

theorem totalOf_perm {first second : List HeldVoucher}
    (perm : first.Perm second) : totalOf first = totalOf second :=
  (perm.map faceAmount).sum_eq

@[simp] theorem ofUnit_append (front rest : List HeldVoucher) :
    ofUnit unit (front ++ rest) = ofUnit unit front ++ ofUnit unit rest := by
  simp [ofUnit]

theorem balance_append (front rest : List HeldVoucher) (total : Decimal) :
    balance precision unit (front ++ rest) total =
      (balance precision unit front total >>= balance precision unit rest) := by
  induction front generalizing total with
  | nil => rfl
  | cons voucher front induction =>
      rw [List.cons_append]
      unfold balance
      split_ifs
      · cases heldAmount voucher.voucher with
        | error error => rfl
        | ok amount =>
            rw [ok_bind, ok_bind]
            cases total.add precision amount with
            | error error => rfl
            | ok sum => exact induction sum
      · exact induction total

/-- The balance reads the vouchers of the unit only. -/
theorem balance_ofUnit (held : List HeldVoucher) (total : Decimal) :
    balance precision unit (ofUnit unit held) total =
      balance precision unit held total := by
  induction held generalizing total with
  | nil => rfl
  | cons voucher rest induction =>
      unfold ofUnit at induction ⊢
      by_cases inUnit : isOfUnit unit voucher = true
      · rw [List.filter_cons_of_pos inUnit]
        unfold isOfUnit at inUnit
        unfold balance
        rw [if_pos inUnit, if_pos inUnit]
        cases heldAmount voucher.voucher with
        | error error => rfl
        | ok amount =>
            rw [ok_bind, ok_bind]
            cases total.add precision amount with
            | error error => rfl
            | ok sum => exact induction sum
      · rw [List.filter_cons_of_neg inUnit, induction]
        unfold isOfUnit at inUnit
        conv_rhs => unfold balance
        rw [if_neg inUnit]

theorem lt_finite {x y : Decimal} (left : x.IsFinite) (right : y.IsFinite) :
    x.lt y = .ok (decide (x.toRat < y.toRat)) := by
  obtain ⟨_, _, _, rfl⟩ := left
  obtain ⟨_, _, _, rfl⟩ := right
  unfold Decimal.lt Decimal.order Decimal.toRat
  rw [Except.ok.injEq, Bool.eq_iff_iff, beq_iff_eq, decide_eq_true_iff]
  exact compare_lt_iff_lt

/-- An addition whose exact sum is a number of the context. -/
theorem add_of_fits {x y : Decimal} (left : x.IsFinite) (right : y.IsFinite)
    (fits : ∀ count, precision = .digits count →
      0 < count ∧ Decimal.Fits count (x.toRat + y.toRat)) :
    ∃ sum, x.add precision y = .ok sum ∧ sum.IsFinite ∧
      sum.toRat = x.toRat + y.toRat := by
  have added : ∃ sum, x.add precision y = .ok sum ∧
      sum.toRat = x.toRat + y.toRat := by
    cases precision with
    | exact =>
        obtain ⟨negative, coefficient, exponent, isSum, value⟩ :=
          Decimal.add_eq_finish left right
        exact ⟨_, isSum .exact, value⟩
    | digits count =>
        obtain ⟨positive, fits⟩ := fits count rfl
        exact (Decimal.add_exact_iff positive left right).mpr fits
  obtain ⟨sum, isSum, value⟩ := added
  exact ⟨sum, isSum, Decimal.add_finite left right isSum, value⟩

theorem sumsExact (decimals : HasDecimals held)
    (fits : FitsContext precision held) : SumsExact precision held := by
  intro unit part
  induction part using List.reverseRecOn with
  | nil =>
      intro _
      exact ⟨.zero, rfl, ⟨false, 0, 0, rfl⟩, by simp [ofUnit]⟩
  | append_singleton part voucher induction =>
      intro partOf
      obtain ⟨total, isTotal, finite, value⟩ :=
        induction ((List.sublist_append_left _ _).trans partOf)
      obtain ⟨face, isFace, faceFinite⟩ := decimals voucher
        (partOf.subset (by simp))
      have faceValue : faceAmount voucher = face.toRat := by
        unfold faceAmount
        rw [isFace]
      rw [balance_append, isTotal, ok_bind]
      unfold balance
      by_cases inUnit : isOfUnit unit voucher = true
      · have single : ofUnit unit [voucher] = [voucher] :=
          List.filter_cons_of_pos inUnit
        have sumValue : totalOf (ofUnit unit (part ++ [voucher])) =
            total.toRat + face.toRat := by
          rw [ofUnit_append, single, totalOf_append, totalOf_cons,
            totalOf_nil, add_zero, value, faceValue]
        obtain ⟨sum, isSum, sumFinite, sumIs⟩ :=
          @add_of_fits precision _ _ finite faceFinite (by
            intro count isDigits
            subst isDigits
            rw [← sumValue]
            exact ⟨fits.1, fits.2 unit _ partOf⟩)
        unfold isOfUnit at inUnit
        rw [if_pos inUnit, isFace, ok_bind, isSum, ok_bind]
        exact ⟨sum, rfl, sumFinite, sumIs.trans sumValue.symm⟩
      · have single : ofUnit unit [voucher] = [] :=
          List.filter_cons_of_neg inUnit
        unfold isOfUnit at inUnit
        rw [if_neg inUnit]
        refine ⟨total, rfl, finite, ?_⟩
        rw [ofUnit_append, single, List.append_nil, value]

/-- Picking on from a part of the wallet takes as few vouchers as it needs. -/
theorem pick_fewest (sums : SumsExact precision held)
    (split : held = before ++ after) {target accumulated : Decimal}
    (finite : target.IsFinite)
    (isTotal : balance precision unit before .zero = .ok accumulated) :
    ∃ count ≤ (ofUnit unit after).length,
      pick precision target unit after accumulated =
        .ok ((ofUnit unit after).take count) ∧
      (∀ fewer < count, totalOf (ofUnit unit before) +
        totalOf ((ofUnit unit after).take fewer) < target.toRat) ∧
      (count < (ofUnit unit after).length →
        target.toRat ≤ totalOf (ofUnit unit before) +
          totalOf ((ofUnit unit after).take count)) := by
  induction after generalizing before accumulated with
  | nil => exact ⟨0, le_rfl, rfl, by simp, by simp [ofUnit]⟩
  | cons voucher rest induction =>
      have partOf : before.Sublist held := by
        rw [split]
        exact List.sublist_append_left _ _
      obtain ⟨total, isTotal', isFinite, value⟩ := sums unit before partOf
      rw [isTotal, Except.ok.injEq] at isTotal'
      subst isTotal'
      have regrouped : held = (before ++ [voucher]) ++ rest := by
        rw [split, List.append_assoc]
        rfl
      unfold pick
      rw [lt_finite isFinite finite, ok_bind, value]
      by_cases less : totalOf (ofUnit unit before) < target.toRat
      · rw [decide_eq_true less]
        simp only [Bool.not_true, Bool.false_eq_true, if_false]
        by_cases inUnit : isOfUnit unit voucher = true
        · have listed : ofUnit unit (voucher :: rest) =
              voucher :: ofUnit unit rest :=
            List.filter_cons_of_pos inUnit
          have single : ofUnit unit [voucher] = [voucher] :=
            List.filter_cons_of_pos inUnit
          have next : balance precision unit (before ++ [voucher]) .zero =
              (do
                let amount ← heldAmount voucher.voucher
                accumulated.add precision amount) := by
            unfold isOfUnit at inUnit
            rw [balance_append, isTotal, ok_bind]
            unfold balance
            rw [if_pos inUnit]
            cases heldAmount voucher.voucher with
            | error error => rfl
            | ok amount =>
                rw [ok_bind, ok_bind]
                cases accumulated.add precision amount <;> rfl
          obtain ⟨sum, isSum, _, sumValue⟩ := sums unit (before ++ [voucher])
            (by rw [regrouped]; exact List.sublist_append_left _ _)
          obtain ⟨count, few, picks, fewer, reaches⟩ :=
            induction regrouped isSum
          rw [next] at isSum
          obtain ⟨face, isFace, added⟩ := bind_eq_ok.mp isSum
          unfold isOfUnit at inUnit
          rw [if_pos inUnit, isFace, ok_bind, added, ok_bind, picks, ok_bind,
            listed]
          rw [ofUnit_append, single, totalOf_append] at fewer reaches
          refine ⟨count + 1, Nat.succ_le_succ few, rfl, ?_, ?_⟩
          · intro lower below
            cases lower with
            | zero => simpa using less
            | succ lower =>
                have bound := fewer lower (Nat.lt_of_succ_lt_succ below)
                simp only [totalOf_cons, totalOf_nil, add_zero] at bound
                rw [List.take_succ_cons, totalOf_cons]
                linarith only [bound]
          · intro below
            have bound := reaches (Nat.lt_of_succ_lt_succ below)
            simp only [totalOf_cons, totalOf_nil, add_zero] at bound
            rw [List.take_succ_cons, totalOf_cons]
            linarith only [bound]
        · have skipped : ofUnit unit (voucher :: rest) = ofUnit unit rest :=
            List.filter_cons_of_neg inUnit
          have single : ofUnit unit [voucher] = [] :=
            List.filter_cons_of_neg inUnit
          have same : balance precision unit (before ++ [voucher]) .zero =
              .ok accumulated := by
            rw [← balance_ofUnit, ofUnit_append, single, List.append_nil,
              balance_ofUnit, isTotal]
          obtain ⟨count, few, picks, fewer, reaches⟩ :=
            induction regrouped same
          unfold isOfUnit at inUnit
          rw [if_neg inUnit, skipped]
          rw [ofUnit_append, single, List.append_nil] at fewer reaches
          exact ⟨count, few, picks, fewer, reaches⟩
      · rw [decide_eq_false less]
        refine ⟨0, Nat.zero_le _, rfl, by simp, ?_⟩
        intro _
        simpa using not_lt.mp less

variable {picked : List HeldVoucher}

theorem mem_remove (distinct : (held.map (·.identity)).Nodup)
    (taken : picked.Sublist held) {voucher : HeldVoucher}
    (member : voucher ∈ held) :
    voucher ∈ remove picked held ↔ voucher ∉ picked := by
  have sameObject : ∀ other ∈ picked,
      other.identity = voucher.identity → other = voucher :=
    fun other isPicked same =>
      List.inj_on_of_nodup_map distinct (taken.subset isPicked) member same
  unfold remove
  simp only [List.mem_filter, member, true_and, Bool.not_eq_true',
    List.any_eq_false, decide_eq_true_eq]
  constructor
  · intro untaken isPicked
    exact untaken voucher isPicked rfl
  · intro notPicked other isPicked same
    exact notPicked (sameObject other isPicked same ▸ isPicked)

/-- Vouchers of other units stay. -/
theorem ofUnit_remove {other : Text} (different : other ≠ unit)
    (distinct : (held.map (·.identity)).Nodup) (taken : picked.Sublist held)
    (inUnit : ∀ voucher ∈ picked, isOfUnit unit voucher = true) :
    ofUnit other (remove picked held) = ofUnit other held := by
  unfold ofUnit
  have stays : ∀ voucher ∈ held, isOfUnit other voucher = true →
      voucher ∈ remove picked held := by
    intro voucher member isOther
    rw [mem_remove distinct taken member]
    intro isPicked
    apply different
    have units := inUnit voucher isPicked
    unfold isOfUnit at isOther units
    rw [Json.isStr_iff] at isOther units
    rw [isOther, Json.str.injEq] at units
    exact units
  unfold remove at stays ⊢
  rw [List.filter_filter]
  apply List.filter_congr
  intro voucher member
  by_cases isOther : isOfUnit other voucher = true
  · have kept := (List.mem_filter.mp (stays voucher member isOther)).2
    rw [isOther, kept]
    rfl
  · rw [Bool.not_eq_true] at isOther
    rw [isOther, Bool.false_and]

/-- **What a selection does to a wallet.** -/
theorem select_takes_shortest {target : Decimal}
    (distinct : (held.map (·.identity)).Nodup) (decimals : HasDecimals held)
    (fits : FitsContext precision held)
    (reads : Decimal.parse amount = .ok target) (finite : target.IsFinite) :
    (totalOf (ofUnit unit held) < target.toRat →
      selecting precision held amount unit =
        (.error .insufficientFunds, held)) ∧
    (target.toRat ≤ totalOf (ofUnit unit held) →
      ∃ picked rest,
        selecting precision held amount unit = (.ok picked, rest) ∧
        IsShortestPrefix (ofUnit unit held) target.toRat picked ∧
        rest.Sublist held ∧ (picked ++ rest).Perm held ∧
        (∀ voucher ∈ held, voucher ∈ rest ↔ voucher ∉ picked) ∧
        (∃ total left, balance precision unit held .zero = .ok total ∧
          balance precision unit rest .zero = .ok left ∧
          total.toRat = totalOf (ofUnit unit held) ∧
          left.toRat = total.toRat - totalOf picked) ∧
        ∀ other, other ≠ unit → balance precision other rest .zero =
          balance precision other held .zero) := by
  have sums := sumsExact decimals fits
  obtain ⟨total, isTotal, totalFinite, totalValue⟩ :=
    sums unit held (List.Sublist.refl _)
  have compares := lt_finite totalFinite finite
  rw [totalValue] at compares
  constructor
  · intro below
    rw [decide_eq_true below] at compares
    unfold selecting select
    rw [reads, ok_bind, isTotal, ok_bind, compares, ok_bind]
    rfl
  · intro enough
    rw [decide_eq_false (not_lt.mpr enough)] at compares
    obtain ⟨count, few, picks, fewer, reaches⟩ :=
      @pick_fewest precision held [] held unit sums rfl target .zero finite rfl
    have inUnit : ∀ voucher ∈ (ofUnit unit held).take count,
        isOfUnit unit voucher = true := by
      intro voucher member
      exact (List.mem_filter.mp (List.mem_of_mem_take member)).2
    have taken : ((ofUnit unit held).take count).Sublist held :=
      (List.take_sublist _ _).trans List.filter_sublist
    have perm := remove_perm distinct taken
    have restOf : (remove ((ofUnit unit held).take count) held).Sublist held :=
      List.filter_sublist
    obtain ⟨left, isLeft, _, leftValue⟩ := sums unit _ restOf
    refine ⟨_, _, ?_, ⟨count, few, rfl, ?_, ?_⟩, restOf, perm,
      fun voucher member => mem_remove distinct taken member,
      ⟨total, left, isTotal, isLeft, totalValue, ?_⟩, ?_⟩
    · unfold selecting select
      rw [reads, ok_bind, isTotal, ok_bind, compares, ok_bind]
      simp only [Bool.false_eq_true, if_false, picks, ok_bind, pure_eq_ok]
    · rcases Nat.lt_or_ge count (ofUnit unit held).length with part | all
      · simpa [ofUnit] using reaches part
      · rw [List.take_of_length_le all]
        exact enough
    · intro lower below
      simpa [ofUnit] using fewer lower below
    · have parts := totalOf_perm (perm.filter (isOfUnit unit))
      rw [List.filter_append, List.filter_eq_self.mpr inUnit,
        totalOf_append] at parts
      rw [leftValue, totalValue]
      exact eq_sub_of_add_eq' parts
    · intro other different
      rw [← balance_ofUnit, ofUnit_remove different distinct taken inUnit,
        balance_ofUnit]

def heldOf (identity : Nat) (denomination unit : Text) : HeldVoucher :=
  ⟨identity, [("denomination", .str denomination), ("unit", .str unit)]⟩

def mixedWallet : List HeldVoucher :=
  [heldOf 0 "0.50" "pic", heldOf 1 "2" "usd", heldOf 2 "0.75" "pic",
    heldOf 3 "0.10" "pic"]

/-- Two of three vouchers cover the price. -/
theorem select_takes_shortest_mixed :
    ∃ picked rest, selecting .exact mixedWallet "0.6" "pic" =
        (.ok picked, rest) ∧
      IsShortestPrefix (ofUnit "pic" mixedWallet)
        (Decimal.toRat (.finite false 6 (-1))) picked ∧
      (picked ++ rest).Perm mixedWallet := by
  have decimals : HasDecimals mixedWallet := by
    unfold HasDecimals mixedWallet
    simp only [List.forall_mem_cons]
    exact ⟨⟨_, rfl, ⟨false, 50, -2, rfl⟩⟩, ⟨_, rfl, ⟨false, 2, 0, rfl⟩⟩,
      ⟨_, rfl, ⟨false, 75, -2, rfl⟩⟩, ⟨_, rfl, ⟨false, 10, -2, rfl⟩⟩, by simp⟩
  obtain ⟨picked, rest, selected, shortest, _, perm, _⟩ :=
    (@select_takes_shortest .exact mixedWallet "pic" "0.6" _ (by decide)
      decimals trivial rfl ⟨false, 6, -1, rfl⟩).2 (by decide +kernel)
  exact ⟨picked, rest, selected, shortest, perm⟩

end SovereignInference.SipPic.Wallet
