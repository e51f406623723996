import SovereignInference.Collections.SlidingWindow
import Mathlib.Algebra.Order.Ring.Rat
import Mathlib.Tactic.NormNum

/-!
# The rate limiter of a gateway

The limiter keeps the times of the calls it has allowed, as far as they are in
the last minute.  Under a clock that does not run backwards it allows as many
calls in every minute as it may, and no more.
-/

namespace SovereignInference.SipGateway

open Collections

/-- `_RateLimiter`: the limit, and the deque of hits. -/
structure RateLimiter where
  limit : Nat
  hits : List ℚ

/-- The seconds of the window. -/
def windowSeconds : ℚ := 60

namespace RateLimiter

/-- `allow`, at the time that the clock shows. -/
def allow (limiter : RateLimiter) (now : ℚ) : Bool × RateLimiter :=
  let windowStart := now - windowSeconds
  let hits := limiter.hits.dropWhile (· ≤ windowStart)
  if limiter.limit ≤ hits.length then (false, { limiter with hits })
  else (true, { limiter with hits := hits ++ [now] })

/-- The calls at the given times, with their answers. -/
def allowAll : RateLimiter → List ℚ → List (ℚ × Bool)
  | _, [] => []
  | limiter, now :: rest =>
      (now, (limiter.allow now).1) :: allowAll (limiter.allow now).2 rest

/-- The times of the calls that were allowed. -/
def allowedTimes (log : List (ℚ × Bool)) : List ℚ :=
  (log.filter (·.2)).map (·.1)

@[simp] theorem allowedTimes_append (log later : List (ℚ × Bool)) :
    allowedTimes (log ++ later) = allowedTimes log ++ allowedTimes later := by
  simp [allowedTimes]

@[simp] theorem allowedTimes_denied (now : ℚ) :
    allowedTimes [(now, false)] = [] := rfl

@[simp] theorem allowedTimes_allowed (now : ℚ) :
    allowedTimes [(now, true)] = [now] := rfl

variable {limiter : RateLimiter} {log : List (ℚ × Bool)} {now : ℚ}
  {times : List ℚ}

theorem allowedTimes_le (reached : ∀ call ∈ log, call.1 ≤ now) :
    ∀ time ∈ allowedTimes log, time ≤ now := by
  intro time member
  obtain ⟨call, allowed, rfl⟩ := List.mem_map.mp member
  exact reached call (List.mem_of_mem_filter allowed)

/-- What the limiter knows of the calls before: from the last of them on, its
hits are the allowed ones that are still in the window. -/
structure Tracks (limiter : RateLimiter) (log : List (ℚ × Bool)) : Prop where
  sorted : limiter.hits.Pairwise (· ≤ ·)
  hits : ∀ now, (∀ call ∈ log, call.1 ≤ now) →
    limiter.hits.dropWhile (· ≤ now - windowSeconds) =
      window windowSeconds now (allowedTimes log)
  bounded : ∀ stop,
    (window windowSeconds stop (allowedTimes log)).length ≤ limiter.limit

theorem tracks_nil (limit : Nat) : Tracks ⟨limit, []⟩ [] := by
  constructor
  · exact List.Pairwise.nil
  · intro now _
    rfl
  · intro stop
    exact Nat.zero_le _

theorem window_self (now : ℚ) : window windowSeconds now [now] = [now] := by
  norm_num [window, windowSeconds]

/-- What is known after a call whose hits were the window, with or without the
call itself. -/
theorem Tracks.after_call {answer : Bool} {hits : List ℚ}
    (tracks : Tracks limiter log) (reached : ∀ call ∈ log, call.1 ≤ now)
    (isHits : hits = window windowSeconds now
      (allowedTimes (log ++ [(now, answer)])))
    (sorted : hits.Pairwise (· ≤ ·)) (few : hits.length ≤ limiter.limit) :
    Tracks { limiter with hits } (log ++ [(now, answer)]) := by
  have upTo : ∀ time ∈ allowedTimes (log ++ [(now, answer)]), time ≤ now := by
    apply allowedTimes_le
    intro call member
    rcases List.mem_append.mp member with earlier | last
    · exact reached call earlier
    · rw [List.mem_singleton.mp last]
  constructor
  · exact sorted
  · intro later laterReached
    have after : now ≤ later := laterReached (now, answer) (by simp)
    rw [dropWhile_le_eq_filter sorted, isHits, filter_window upTo after]
  · intro stop
    cases answer with
    | false =>
        rw [allowedTimes_append, allowedTimes_denied, List.append_nil]
        exact tracks.bounded stop
    | true =>
        rw [isHits, allowedTimes_append, allowedTimes_allowed] at few
        rw [allowedTimes_append, allowedTimes_allowed]
        exact window_append_le (allowedTimes_le reached) tracks.bounded few
          stop

/-- **One call.**  It is denied exactly if the window is full. -/
theorem Tracks.allow (tracks : Tracks limiter log)
    (reached : ∀ call ∈ log, call.1 ≤ now) :
    Tracks (limiter.allow now).2 (log ++ [(now, (limiter.allow now).1)]) ∧
      ((limiter.allow now).1 = false →
        (window windowSeconds now (allowedTimes log)).length =
          limiter.limit) := by
  have isWindow := tracks.hits now reached
  have sorted : (window windowSeconds now (allowedTimes log)).Pairwise
      (· ≤ ·) := by
    rw [← isWindow]
    exact tracks.sorted.sublist (List.dropWhile_sublist _)
  have bounded := tracks.bounded now
  unfold RateLimiter.allow
  simp only [isWindow]
  split_ifs with full
  · refine ⟨tracks.after_call reached ?_ sorted bounded, fun _ =>
      le_antisymm bounded full⟩
    rw [allowedTimes_append, allowedTimes_denied, List.append_nil]
  · refine ⟨tracks.after_call reached ?_ ?_ ?_, fun denied => ?_⟩
    · rw [allowedTimes_append, allowedTimes_allowed]
      unfold window
      rw [List.filter_append]
      exact congrArg _ (window_self now).symm
    · refine List.pairwise_append.mpr ⟨sorted, List.pairwise_singleton _ _, ?_⟩
      intro time member other isNow
      rw [List.mem_singleton.mp isNow]
      exact allowedTimes_le reached time (List.mem_of_mem_filter member)
    · rw [List.length_append, List.length_singleton]
      exact not_le.mp full
    · cases denied

/-- A run after calls that the limiter tracks. -/
theorem Tracks.allowAll (tracks : Tracks limiter log)
    (ordered : times.Pairwise (· ≤ ·))
    (reached : ∀ call ∈ log, ∀ time ∈ times, call.1 ≤ time) :
    (∀ stop, (window windowSeconds stop
      (allowedTimes (log ++ limiter.allowAll times))).length ≤
        limiter.limit) ∧
    ∀ before now after,
      limiter.allowAll times = before ++ (now, false) :: after →
        (window windowSeconds now (allowedTimes (log ++ before))).length =
          limiter.limit := by
  induction times generalizing limiter log with
  | nil =>
      refine ⟨?_, ?_⟩
      · intro stop
        simpa [RateLimiter.allowAll] using tracks.bounded stop
      · intro before now after split
        simp [RateLimiter.allowAll] at split
  | cons now rest induction =>
      obtain ⟨later, ordered⟩ := List.pairwise_cons.mp ordered
      have upTo : ∀ call ∈ log, call.1 ≤ now := fun call member =>
        reached call member now List.mem_cons_self
      obtain ⟨tracks', full⟩ := tracks.allow upTo
      have sameLimit : (limiter.allow now).2.limit = limiter.limit := by
        unfold RateLimiter.allow
        dsimp only
        split_ifs <;> rfl
      have reached' : ∀ call ∈ log ++ [(now, (limiter.allow now).1)],
          ∀ time ∈ rest, call.1 ≤ time := by
        intro call member time inRest
        rcases List.mem_append.mp member with earlier | isNow
        · exact reached call earlier time (List.mem_cons_of_mem _ inRest)
        · rw [List.mem_singleton.mp isNow]
          exact later time inRest
      obtain ⟨bounded, denials⟩ := induction tracks' ordered reached'
      rw [sameLimit] at bounded denials
      unfold RateLimiter.allowAll
      refine ⟨?_, ?_⟩
      · intro stop
        simpa using bounded stop
      · intro before time after split
        cases before with
        | nil =>
            obtain ⟨isCall, _⟩ := List.cons.inj split
            rw [Prod.mk.injEq] at isCall
            obtain ⟨rfl, denied⟩ := isCall
            simpa using full denied
        | cons first before =>
            obtain ⟨rfl, others⟩ := List.cons.inj split
            simpa using denials before time after others

/-- **A sliding window.**  However the calls come, no minute holds more
allowed ones than the limit, and a call is denied only in a full minute. -/
theorem sliding_window (limit : Nat) (ordered : times.Pairwise (· ≤ ·)) :
    let log := RateLimiter.allowAll ⟨limit, []⟩ times
    (∀ stop, (window windowSeconds stop (allowedTimes log)).length ≤ limit) ∧
      ∀ before now after, log = before ++ (now, false) :: after →
        (window windowSeconds now (allowedTimes before)).length = limit := by
  simpa using (tracks_nil limit).allowAll ordered (by simp)

/-- Two calls a minute: the third one comes too early, the fourth just in
time. -/
theorem sliding_window_boundary :
    let log := RateLimiter.allowAll ⟨2, []⟩ [0, 1, 59, 60]
    log = [(0, true), (1, true), (59, false), (60, true)] ∧
      (∀ stop, (window windowSeconds stop (allowedTimes log)).length ≤ 2) ∧
      ∀ before now after, log = before ++ (now, false) :: after →
        (window windowSeconds now (allowedTimes before)).length = 2 := by
  refine ⟨by decide +kernel, sliding_window 2 ?_⟩
  decide +kernel

end RateLimiter

end SovereignInference.SipGateway
