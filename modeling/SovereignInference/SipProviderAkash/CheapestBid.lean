import SovereignInference.Arithmetic.FloatCompare
import SovereignInference.Collections.FirstLeast
import SovereignInference.SipProviderAkash.Provider

/-!
# The cheapest open bid

The loop over the bids keeps the first one of lowest price, whether it is open
or not; a price that is missing or no number is infinite, and a NaN that comes
first stays.
-/

namespace SovereignInference.SipProviderAkash

open Python Effects Arithmetic Collections

/-- A bid with a provider: its price, if the amount is the text of a number,
and whether it is open. -/
structure Offer where
  provider : Text
  price : Option Float
  isOpen : Bool

def readPrice : Except PyExc Json → Option Float
  | .ok (.str amount) => (parseFloat amount).toOption
  | _ => none

def offerOf (entry : Json) : Option Offer :=
  (bidOf entry).bind fun bid =>
    match innerField bid "bid_id" "provider" with
    | .ok (.str (c :: rest)) => some {
        provider := c :: rest
        price := readPrice (innerField bid "price" "amount")
        isOpen := (bid.get "state").isStr "open" }
    | _ => none

def MaybeText (field : Except PyExc Json) : Prop :=
  field = .ok .null ∨ ∃ s, field = .ok (.str s)

/-- If the entry is a bid, its provider and its price are strings, or are
missing. -/
def CliBid (entry : Json) : Prop :=
  ∀ bid, bidOf entry = some bid →
    MaybeText (innerField bid "bid_id" "provider") ∧
      MaybeText (innerField bid "price" "amount")

namespace Offer

/-- The price that bids are compared by. -/
def cost (offer : Offer) : Float := offer.price.getD floatInfinity

/-- An open bid with a finite price. -/
def Eligible (offer : Offer) : Prop :=
  offer.isOpen = true ∧ ∃ price, offer.price = some price ∧
    price.isFinite = true

def Cheaper (offer other : Offer) : Prop := offer.cost < other.cost

instance : DecidableRel Cheaper :=
  fun offer other => inferInstanceAs (Decidable (offer.cost < other.cost))

def HasNumber (offer : Offer) : Prop := offer.cost.isNaN = false

theorem isComparison : IsComparison Cheaper HasNumber where
  both := by
    intro a b below
    obtain ⟨first, second⟩ := isNumber_of_lt below
    exact ⟨isNumber_iff.mp first, isNumber_iff.mp second⟩
  irrefl := by
    intro a below
    obtain ⟨number, _⟩ := isNumber_of_lt below
    exact lt_irrefl _ ((lt_iff_place number number).mp below)
  trans := by
    intro a b c below above
    obtain ⟨first, second⟩ := isNumber_of_lt below
    obtain ⟨_, third⟩ := isNumber_of_lt above
    exact (lt_iff_place first third).mpr
      (((lt_iff_place first second).mp below).trans
        ((lt_iff_place second third).mp above))
  between := by
    intro a b c below canCompare
    obtain ⟨first, third⟩ := isNumber_of_lt below
    have second := isNumber_iff.mpr canCompare
    have order := (lt_iff_place first third).mp below
    unfold Cheaper
    rw [lt_iff_place first second, lt_iff_place second third]
    exact (lt_or_ge _ _).imp_right fun atMost => atMost.trans_lt order

end Offer

variable (offers : List Offer)

/-- An open bid of lowest price, among those with a finite price. -/
def CheapestOpen (offer : Offer) : Prop :=
  offer ∈ offers ∧ offer.Eligible ∧
    ∀ other ∈ offers, other.Eligible → offer.cost ≤ other.cost

/-- The first bid of lowest price, open or not, unless the first bid has a NaN
for its price: then that one. -/
abbrev Decisive (offer : Offer) : Prop :=
  FirstLeast Offer.Cheaper Offer.HasNumber offers offer

/-- The better of the best offer so far and the next one. -/
def better : Option Offer → Offer → Option Offer
  | none, offer => some offer
  | some best, offer => some (if offer.Cheaper best then offer else best)

def asBest (offer : Offer) : Float × Text := (offer.cost, offer.provider)

private theorem parseFloat_error {s : Text} {error : PyExc}
    (failed : parseFloat s = .error error) : error = .valueError := by
  unfold parseFloat at failed
  split at failed
  · cases failed
    rfl
  · split at failed
    · cases failed
    · dsimp only at failed
      split_ifs at failed
      cases failed
      rfl

private theorem bidPrice_text {field : Except PyExc Json}
    (isText : MaybeText field) :
    field >>= bidPrice = .ok ((readPrice field).getD floatInfinity) := by
  rcases isText with rfl | ⟨s, rfl⟩
  · rfl
  · rw [ok_bind]
    unfold bidPrice
    dsimp only [Json.toFloat, readPrice]
    cases parsed : parseFloat s with
    | ok price => rfl
    | error error =>
        obtain rfl := parseFloat_error parsed
        rfl

variable (isPrintable : CodePoint → Bool)

private theorem considerBid_eq {entry : Json} (isBid : CliBid entry)
    (best : Option Offer) :
    considerBid isPrintable (best.map asBest) entry =
      .ok (((offerOf entry).toList.foldl better best).map asBest) := by
  unfold considerBid offerOf
  cases found : bidOf entry with
  | none => rfl
  | some bid =>
      obtain ⟨provider, price⟩ := isBid bid found
      have priced := bidPrice_text price
      obtain ⟨raw, hasPrice⟩ :
          ∃ raw, innerField bid "price" "amount" = .ok raw := by
        rcases price with missing | ⟨s, given⟩
        · exact ⟨_, missing⟩
        · exact ⟨_, given⟩
      rw [hasPrice, ok_bind] at priced
      rw [Option.bind_some]
      rcases provider with missing | ⟨name, given⟩
      · simp only [missing, hasPrice, ok_bind]
        rfl
      · simp only [given, hasPrice, ok_bind, priced]
        cases name with
        | nil => rfl
        | cons c rest =>
            cases best with
            | none => rfl
            | some best =>
                have nonempty : (Json.str (c :: rest)).truthy = true := by
                  simp [Json.truthy]
                rw [nonempty]
                rw [Bool.not_true, if_neg Bool.false_ne_true]
                let offer : Offer := {
                  provider := c :: rest
                  price := readPrice (.ok raw)
                  isOpen := (bid.get "state").isStr "open" }
                change (if decide (offer.Cheaper best) = true then
                    .ok (some (asBest offer)) else .ok (some (asBest best))) =
                  Except.ok (some (asBest
                    (if offer.Cheaper best then offer else best)))
                by_cases cheaper : offer.Cheaper best
                · rw [if_pos cheaper, if_pos (decide_eq_true cheaper)]
                · rw [if_neg cheaper,
                    if_neg (fun below => cheaper (of_decide_eq_true below))]

theorem foldlM_considerBid {entries : List Json}
    (areBids : ∀ entry ∈ entries, CliBid entry) (best : Option Offer) :
    entries.foldlM (considerBid isPrintable) (best.map asBest) =
      .ok (((entries.filterMap offerOf).foldl better best).map asBest) := by
  induction entries generalizing best with
  | nil => rfl
  | cons entry entries induction =>
      obtain ⟨isBid, areBids⟩ := List.forall_mem_cons.mp areBids
      rw [List.foldlM_cons, considerBid_eq isPrintable isBid best, ok_bind,
        induction areBids, List.filterMap_cons]
      cases offerOf entry <;> rfl

private theorem foldl_better (first : Offer) (rest : List Offer) :
    (first :: rest).foldl better none =
      some (rest.foldl (fun best offer =>
        if offer.Cheaper best then offer else best) first) := by
  rw [List.foldl_cons, better]
  induction rest generalizing first with
  | nil => rfl
  | cons offer rest induction =>
      rw [List.foldl_cons, List.foldl_cons, better]
      exact induction _

/-- The provider of the decisive bid is picked. -/
theorem pick_decisive {data : Dict} {bids : List Json}
    (listed : data.get "bids" = .arr bids)
    (areBids : ∀ entry ∈ bids, CliBid entry) :
    (bids.filterMap offerOf = [] ∧
      pickCheapestBid isPrintable data = .ok none) ∨
    ∃ offer, Decisive (bids.filterMap offerOf) offer ∧
      pickCheapestBid isPrintable data = .ok (some offer.provider) := by
  have folded := foldlM_considerBid isPrintable areBids none
  rw [Option.map_none] at folded
  unfold pickCheapestBid
  rw [listed]
  dsimp only
  rw [folded]
  cases bids.filterMap offerOf with
  | nil => exact .inl ⟨rfl, rfl⟩
  | cons first rest =>
      rw [foldl_better]
      exact .inr ⟨_, firstLeast_foldl Offer.isComparison first rest, rfl⟩

/-- The provider of a cheapest open bid is picked, if there is one, exactly if
the decisive bid has such a provider. -/
theorem picks_cheapest_iff {data : Dict} {bids : List Json}
    (listed : data.get "bids" = .arr bids)
    (areBids : ∀ entry ∈ bids, CliBid entry) :
    ((∃ offer ∈ bids.filterMap offerOf, offer.Eligible) →
      ∃ offer, CheapestOpen (bids.filterMap offerOf) offer ∧
        pickCheapestBid isPrintable data = .ok (some offer.provider)) ↔
    ((∃ offer ∈ bids.filterMap offerOf, offer.Eligible) →
      ∃ decisive, Decisive (bids.filterMap offerOf) decisive ∧
        ∃ offer, CheapestOpen (bids.filterMap offerOf) offer ∧
          offer.provider = decisive.provider) := by
  apply imp_congr_right
  intro eligible
  rcases pick_decisive isPrintable listed areBids with
    ⟨nothing, _⟩ | ⟨decisive, decides, picked⟩
  · rw [nothing] at eligible
    obtain ⟨offer, member, _⟩ := eligible
    cases member
  · rw [picked]
    constructor
    · rintro ⟨offer, cheapest, same⟩
      refine ⟨decisive, decides, offer, cheapest, ?_⟩
      exact (Option.some.inj (Except.ok.inj same)).symm
    · rintro ⟨other, decidesToo, offer, cheapest, same⟩
      refine ⟨offer, cheapest, ?_⟩
      rw [same, decides.unique Offer.isComparison decidesToo]

def bidEntry (provider amount state : Text) : Json :=
  .obj [("bid", .obj [("bid_id", .obj [("provider", .str provider)]),
    ("price", .obj [("amount", .str amount)]), ("state", .str state)])]

/-- The first bid is closed. -/
def twoBids (amount : Text) : List Json :=
  [bidEntry "akash1closed" amount "closed", bidEntry "akash1open" "5" "open"]

def listing (amount : Text) : Dict := [("bids", .arr (twoBids amount))]

theorem twoBids_areBids (amount : Text) :
    ∀ entry ∈ twoBids amount, CliBid entry := by
  have each : ∀ provider amount state,
      CliBid (bidEntry provider amount state) := by
    intro provider amount state bid isBid
    cases isBid
    exact ⟨.inr ⟨provider, rfl⟩, .inr ⟨amount, rfl⟩⟩
  intro entry member
  simp only [twoBids, List.mem_cons, List.not_mem_nil, or_false] at member
  rcases member with rfl | rfl
  · exact each _ _ _
  · exact each _ _ _

private theorem twoBids_offers (amount : Text) :
    (twoBids amount).filterMap offerOf =
      [⟨"akash1closed", (parseFloat amount).toOption, false⟩,
        ⟨"akash1open", some 5, true⟩] := rfl

private theorem closed_not_cheapest {amount : Text}
    (picked : pickCheapestBid (fun _ => true) (listing amount) =
      .ok (some "akash1closed")) :
    (∃ offer ∈ (twoBids amount).filterMap offerOf, offer.Eligible) ∧
      ¬ ∃ offer, CheapestOpen ((twoBids amount).filterMap offerOf) offer ∧
        pickCheapestBid (fun _ => true) (listing amount) =
          .ok (some offer.provider) := by
  rw [picked, twoBids_offers]
  constructor
  · exact ⟨⟨"akash1open", some 5, true⟩, by simp, rfl, 5, rfl,
      by decide +kernel⟩
  · rintro ⟨offer, ⟨isOffer, ⟨isOpen, _⟩, _⟩, same⟩
    simp only [List.mem_cons, List.not_mem_nil, or_false] at isOffer
    rcases isOffer with rfl | rfl
    · cases isOpen
    · exact absurd same (by decide +kernel)

/-- The closed bid is picked, be it cheaper or at no price. -/
theorem closed_bid_picked :
    ((∃ offer ∈ (twoBids "1").filterMap offerOf, offer.Eligible) ∧
      ¬ ∃ offer, CheapestOpen ((twoBids "1").filterMap offerOf) offer ∧
        pickCheapestBid (fun _ => true) (listing "1") =
          .ok (some offer.provider)) ∧
    (∃ offer ∈ (twoBids "nan").filterMap offerOf, offer.Eligible) ∧
      ¬ ∃ offer, CheapestOpen ((twoBids "nan").filterMap offerOf) offer ∧
        pickCheapestBid (fun _ => true) (listing "nan") =
          .ok (some offer.provider) :=
  ⟨closed_not_cheapest rfl, closed_not_cheapest rfl⟩

theorem picks_cheapest_iff_listing :
    ((∃ offer ∈ (twoBids "7").filterMap offerOf, offer.Eligible) →
      ∃ offer, CheapestOpen ((twoBids "7").filterMap offerOf) offer ∧
        pickCheapestBid (fun _ => true) (listing "7") =
          .ok (some offer.provider)) ↔
    ((∃ offer ∈ (twoBids "7").filterMap offerOf, offer.Eligible) →
      ∃ decisive, Decisive ((twoBids "7").filterMap offerOf) decisive ∧
        ∃ offer, CheapestOpen ((twoBids "7").filterMap offerOf) offer ∧
          offer.provider = decisive.provider) :=
  @picks_cheapest_iff (fun _ => true) (listing "7") _ rfl
    (twoBids_areBids "7")

end SovereignInference.SipProviderAkash
