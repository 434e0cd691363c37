import StellarPriceOracle.WsReplay

-- How often a client may ask for a replay.
namespace StellarPriceOracle.ReplayLimiter
open WsReplay (ReplayRateLimiter)
open InsertionMap (foldl_shown get_remove)
open List

inductive Call where
  | allow (key : String)
  | prune

def within (windowMs now : Int) (timestamps : List Int) : List Int := timestamps.filter (fun t => now - t < windowMs)

def pruneKey (windowMs now : Int) (hits : InsertionMap String (List Int)) (entry : String × List Int) : InsertionMap String (List Int) :=
  let recent := within windowMs now entry.2
  if recent.length = 0 then hits.remove entry.1 else hits.set entry.1 recent

def prune (l : ReplayRateLimiter) (now : Int) : ReplayRateLimiter := {l with hits := l.hits.entries.foldl (pruneKey l.windowMs now) l.hits}

def next (l : ReplayRateLimiter) : Int × Call → ReplayRateLimiter
  | (now,.allow key) => (l.allow key now).2
  | (now,.prune) => prune l now

-- What a call adds to the times at which calls with the key were allowed.
def grant (key : String) (l : ReplayRateLimiter) : Int × Call → List Int
  | (now,.allow other) => if other = key ∧ (l.allow other now).1 then [now] else []
  | (_,.prune) => []

-- The limiter after the calls, and when those with the key were allowed.
def run (l : ReplayRateLimiter) (key : String) (calls : List (Int × Call)) : ReplayRateLimiter × List Int :=
  calls.foldl (fun r call => (next r.1 call,r.2 ++ grant key r.1 call)) ({l with hits := .empty},[])

def InOrder (calls : List (Int × Call)) : Prop := calls.Pairwise (fun a b => a.1 ≤ b.1)

-- From `now` on, what is stored for the key counts as all that was granted does.
structure Faithful (l : ReplayRateLimiter) (key : String) (s : ReplayRateLimiter × List Int) (now : Int) : Prop where
  limit : s.1.maxRequests = l.maxRequests
  window : s.1.windowMs = l.windowMs
  counts : ∀ later, now ≤ later → within l.windowMs later ((s.1.hits.get key).getD []) = within l.windowMs later s.2

section
variable {l : ReplayRateLimiter} {windowMs now : Int} {key : String} {calls : List (Int × Call)}

theorem within_append : within windowMs now (past ++ more) = within windowMs now past ++ within windowMs now more := filter_append ..

theorem within_within (ordered : now ≤ later) : within windowMs later (within windowMs now past) = within windowMs later past := by
  unfold within
  rw [filter_filter]
  refine filter_congr (fun t _ => ?_)
  simp only [Bool.and_eq_left_iff_imp,decide_eq_true_eq]
  omega

theorem prune_stored : ((prune l now).hits.get key).getD [] = within l.windowMs now ((l.hits.get key).getD []) := by
  refine (foldl_shown (k := key) (fun s : InsertionMap _ _ => (s.get key).getD []) (fun _ held => within l.windowMs now held) ?_ ?_ l.hits.distinct _).trans ?_
  · intro s held
    rw [pruneKey]
    split <;> simp_all [get_remove]
  · intro s entry apart
    rw [pruneKey]
    split <;> simp [get_remove,apart.symm]
  · rw [InsertionMap.get]
    cases InsertionMap.lookup key l.hits.entries <;> rfl

theorem next_faithful (faithful : Faithful l key s call.1) : Faithful l key (next s.1 call,s.2 ++ grant key s.1 call) call.1 := by
  obtain ⟨limit,window,counts⟩ := faithful
  obtain ⟨now,other | _⟩ := call
  · have cut : ∀ later, now ≤ later → within l.windowMs later (s.1.recent other now) = within l.windowMs later ((s.1.hits.get other).getD []) :=
      fun later ordered => window ▸ within_within ordered
    rw [next,grant,ReplayRateLimiter.allow]
    rcases eq_or_ne other key with rfl | here
    · split <;> refine ⟨limit,window,fun later ordered => ?_⟩ <;> simp [within_append,cut later ordered,counts later ordered]
    · split <;> refine ⟨limit,window,fun later ordered => ?_⟩ <;> simp [here,here.symm,counts later ordered]
  · refine ⟨limit,window,fun later ordered => ?_⟩
    rw [next,prune_stored,window,within_within ordered,counts later ordered,grant,append_nil]

theorem allow_exact (faithful : Faithful l key s now) : (s.1.allow key now).1 = true ↔ (within l.windowMs now s.2).length < l.maxRequests := by
  rw [← faithful.counts now (Int.le_refl _),← faithful.limit,← faithful.window,ReplayRateLimiter.allow]
  split <;> simp_all [ReplayRateLimiter.recent,within]

theorem InOrder.faithful (ordered : InOrder (earlier ++ call :: rest)) : Faithful l key (run l key earlier) call.1 := by
  induction earlier using reverseRecOn generalizing call rest with
  | nil => exact ⟨rfl,rfl,fun _ _ => rfl⟩
  | append_singleton earlier c ih =>
    rw [append_assoc] at ordered
    have before : c.1 ≤ call.1 := (pairwise_cons.mp (pairwise_append.mp ordered).2.1).1 call mem_cons_self
    rw [run,foldl_append]
    have kept := next_faithful (ih ordered)
    exact {kept with counts := fun later after => kept.counts later (Int.le_trans before after)}

-- An interval holds no more than its last call found of them, and that call.
theorem run_bounded (ordered : InOrder calls) (near : ∀ t u, inside t → inside u → u - t < l.windowMs) :
    (run l key calls).2.countP inside ≤ l.maxRequests := by
  induction calls using reverseRecOn with
  | nil => exact Nat.zero_le _
  | append_singleton calls call ih =>
    have bounded := ih (pairwise_append.mp ordered).1
    rw [run,foldl_append]
    show ((run l key calls).2 ++ grant key (run l key calls).1 call).countP inside ≤ l.maxRequests
    rw [countP_append]
    obtain ⟨now,other | _⟩ := call
    · rw [grant]
      split
      · rename_i allowed
        obtain ⟨rfl,allowed⟩ := allowed
        have found := (allow_exact ordered.faithful).mp allowed
        by_cases last : inside now = true
        · have fewer : (run l other calls).2.countP inside ≤ (within l.windowMs now (run l other calls).2).length := by
            rw [within,← countP_eq_length_filter]
            exact countP_mono_left (fun t _ within => by simpa using near t now within last)
          rw [countP_singleton,if_pos last]
          exact Nat.lt_of_le_of_lt fewer found
        · simpa [last] using bounded
      · exact bounded
    · exact bounded

theorem replay_limited (ordered : InOrder calls) :
    (∀ start, (run l key calls).2.countP (fun t => start ≤ t ∧ t < start + l.windowMs) ≤ l.maxRequests ∧
      (run l key calls).2.countP (fun t => start < t ∧ t ≤ start + l.windowMs) ≤ l.maxRequests) ∧
    ∀ earlier now later, calls = earlier ++ (now,.allow key) :: later → ((run l key earlier).1.allow key now).1 = false →
      l.maxRequests ≤ (run l key earlier).2.countP (fun t => now - l.windowMs < t) := by
  refine ⟨fun start => ⟨run_bounded ordered ?_,run_bounded ordered ?_⟩,?_⟩
  · intro t u before after
    simp only [decide_eq_true_eq] at before after
    omega
  · intro t u before after
    simp only [decide_eq_true_eq] at before after
    omega
  · rintro earlier now later rfl refused
    have found := (allow_exact ordered.faithful).not.mp (ne_true_of_eq_false refused)
    rw [within,← countP_eq_length_filter,Nat.not_lt] at found
    refine Nat.le_trans found (countP_mono_left (fun t _ => ?_))
    simp only [decide_eq_true_eq]
    omega

end

theorem third_in_window_refused : ∃ calls, InOrder calls ∧ (run ⟨2,10,.empty⟩ "a" calls).2 = [0,4,12] ∧
    ∀ start, (run ⟨2,10,.empty⟩ "a" calls).2.countP (fun t => start ≤ t ∧ t < start + 10) ≤ 2 := by
  have ordered : InOrder [(0,.allow "a"),(4,.allow "a"),(9,.allow "a"),(11,.prune),(12,.allow "a")] := by simp [InOrder]
  exact ⟨_,ordered,by decide,fun start => ((replay_limited (l := ⟨2,10,.empty⟩) ordered).1 start).1⟩

end StellarPriceOracle.ReplayLimiter
