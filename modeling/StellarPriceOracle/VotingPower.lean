import StellarPriceOracle.GovernanceLifecycle
import StellarPriceOracle.Library.TokenSupply

namespace StellarPriceOracle.VotingPower
open Guarded Storage Governance GovernanceLifecycle TokenSupply
open Runs (Transition Run)
open KeyedStore (empty)
open Prod (fst mk snd)

variable {id : Nat} {supply : Int}

-- The governance contract beside the token at address `asset`.
structure World (supply : Int) where
  storage : Storage
  token : Token Address supply

inductive Event where
  | call (env : Env) (call : Call)
  | transfer (sender receiver : Address) (amount : Int)

def view (asset : Address) (w : World supply) (env : Env) : Env :=
  {env with balance := fun token account => if token = asset then w.token.balance account else env.balance token account}

def step (asset : Address) (w : World supply) : Event → Outcome (World supply)
  | .call env call => do
    let storage ← Governance.step w.storage (view asset w env,call)
    .ok {w with storage := storage}
  | .transfer sender receiver amount => do
    let token ← Guarded.someOr (w.token.send sender receiver amount) .trap
    .ok {w with token := token}

abbrev Trace (supply : Int) := List (Transition (World supply) Event)

def cast (env : Env) (s : Storage) (id : Nat) : Call → Option (Address × Int)
  | .vote voter target _ =>
    if target = id then (getGovConfig s).map (fun config => (voter,votingPower env config voter)) else none
  | _ => none

def ballot (asset : Address) (id : Nat) (t : Transition (World supply) Event) : Option (Address × Int) :=
  match t.input with
  | .call env call => cast (view asset t.before env) t.before.storage id call
  | .transfer _ _ _ => none

def ballots (asset : Address) (id : Nat) (ts : Trace supply) : List (Address × Int) := ts.filterMap (ballot asset id)

def voters (asset : Address) (id : Nat) (ts : Trace supply) : List Address := (ballots asset id ts).map fst

theorem ballots_snoc : ballots asset id (ts ++ [t] : Trace supply) = ballots asset id ts ++ (ballot asset id t).toList := by
  cases voting : ballot asset id t <;> simp [ballots,voting]

theorem cast_parts (voting : cast env s id call = some b) : ∃ support config, call = .vote b.1 id support ∧
    getGovConfig s = some config ∧ b.2 = votingPower env config b.1 := by
  cases call with
  | vote _ _ support =>
    simp only [cast] at voting
    split at voting
    · rename_i here
      obtain ⟨config,conf,rfl⟩ := Option.map_eq_some_iff.mp voting
      exact ⟨support,config,by rw [here],conf,rfl⟩
    · cases voting
  | _ => simp [cast] at voting

theorem cast_subject (other : subject call ≠ some id) : cast env s id call = none := by
  cases voting : cast env s id call with
  | none => rfl
  | some =>
    obtain ⟨_,_,rfl,_⟩ := cast_parts voting
    simp [subject] at other

def tally : Option GovernanceProposal → Int
  | some p => p.votesFor + p.votesAgainst
  | none => 0

theorem counted_tally : tally (some (counted p support power)) = tally (some p) + power := by
  cases support <;> simp [tally,counted] <;> omega

theorem move_tally (move : Move env s id call after) :
    tally after = tally (getGovProposal s id) + ((cast env s id call).toList.map snd).sum := by
  cases move with
  | keep other => simp [cast_subject other]
  | create absent _ _ _ noneFor noneAgainst => simp [absent,cast,tally,noneFor,noneAgainst]
  | vote has conf => simp [has,cast,conf,counted_tally]
  | queue has _ resolved | execute has _ resolved =>
    obtain ⟨_,_,sameFor,sameAgainst,_⟩ := resolution_same resolved
    simp [has,cast,tally,sameFor,sameAgainst]
  | cancel has | emergency has => simp [has,cast,tally]

theorem vote_marks (ran : Governance.step s (env,.vote voter id support) = .ok next) :
    hasVoted s id voter = false ∧ hasVoted next id voter = true := by
  obtain ⟨_,_,_,_,_,_,fresh,rfl⟩ := vote_parts ran
  exact ⟨fresh,by simp [hasVoted,setGovProposal,recordVote]⟩

theorem step_voted (valid : WellFormed s) (ran : Governance.step s (env,call) = .ok next)
    (voted : hasVoted s id voter = true) : hasVoted next id voter = true := by
  by_cases voting : ∃ support, call = .vote voter id support
  · obtain ⟨support,rfl⟩ := voting
    exact (vote_marks ran).2
  · have same : next.get (.vote id voter) = s.get (.vote id voter) := by
      apply step_frame valid.keyed ran
      intro _
      apply voting
      cases call <;> simp_all [Writes]
    rw [hasVoted,same]
    exact voted

theorem call_parts (accepted : step asset w (.call env call) = .ok next) :
    Governance.step w.storage (view asset w env,call) = .ok next.storage ∧ next.token = w.token := by
  obtain ⟨_,ran,⟨⟩⟩ := bind_ok.mp accepted
  exact ⟨ran,rfl⟩

theorem transfer_parts (ran : step asset w (.transfer sender receiver amount) = .ok next) :
    next.storage = w.storage ∧ w.token.send sender receiver amount = some next.token := by
  obtain ⟨_,sent,⟨⟩⟩ := lookup_ok.mp ran
  exact ⟨rfl,sent⟩

-- The count is the sum of the votes cast so far, by different addresses.
structure Tallied (asset : Address) (id : Nat) (ts : Trace supply) (w : World supply) : Prop where
  wellFormed : WellFormed w.storage
  sum : tally (getGovProposal w.storage id) = ((ballots asset id ts).map snd).sum
  marked : ∀ voter ∈ voters asset id ts, hasVoted w.storage id voter = true
  once : (voters asset id ts).Nodup

theorem call_tallied (accepted : step asset w (.call env call) = .ok next)
    (kept : Tallied asset id ts w) : Tallied asset id (ts ++ [⟨w,.call env call,next⟩]) next := by
  obtain ⟨ran,_⟩ := call_parts accepted
  have new : ∀ b ∈ (cast (view asset w env) w.storage id call).toList,
      hasVoted w.storage id b.1 = false ∧ hasVoted next.storage id b.1 = true := by
    intro b voting
    obtain ⟨_,_,rfl,_⟩ := cast_parts (Option.mem_toList.mp voting)
    exact vote_marks ran
  refine ⟨step_wellFormed ran kept.wellFormed,?_,?_,?_⟩
  · rw [move_tally (step_moves kept.wellFormed ran id),kept.sum,ballots_snoc,List.map_append,List.sum_append]
    rfl
  · intro voter voted
    simp only [voters,ballots_snoc,List.map_append,List.mem_append] at voted
    rcases voted with old | last
    · exact step_voted kept.wellFormed ran (kept.marked voter old)
    · obtain ⟨b,voting,rfl⟩ := List.mem_map.mp last
      exact (new b voting).2
  · simp only [voters,ballots_snoc,List.map_append]
    refine List.nodup_append.mpr ⟨kept.once,?_,?_⟩
    · cases ballot asset id ⟨w,.call env call,next⟩ <;> simp
    · rintro voter old _ last rfl
      obtain ⟨b,voting,rfl⟩ := List.mem_map.mp last
      have marked := kept.marked _ old
      rw [(new b voting).1] at marked
      cases marked

theorem transfer_tallied (ran : step asset w (.transfer sender receiver amount) = .ok next)
    (kept : Tallied asset id ts w) : Tallied asset id (ts ++ [⟨w,.transfer sender receiver amount,next⟩]) next := by
  have same : ballots asset id (ts ++ [⟨w,.transfer sender receiver amount,next⟩]) = ballots asset id ts := by
    rw [ballots_snoc]
    exact List.append_nil _
  have storage := (transfer_parts ran).1
  refine ⟨?_,?_,?_,?_⟩
  · rw [storage]
    exact kept.wellFormed
  · rw [storage,same]
    exact kept.sum
  · rw [storage,voters,same]
    exact kept.marked
  · rw [voters,same]
    exact kept.once

theorem runs_tallied (path : Run (step asset) ⟨empty,token⟩ ts w) (id : Nat) : Tallied asset id ts w := by
  induction path with
  | nil =>
    refine ⟨empty_wellFormed,?_,?_,?_⟩
    · simp [tally,getGovProposal,ballots]
    · simp [voters,ballots]
    · simp [voters,ballots]
  | @snoc ts w event next prior ran ih =>
    cases event with
    | call => exact call_tallied ran ih
    | transfer => exact transfer_tallied ran ih

-- Every vote on the proposal is counted in this token.
def Governed (asset : Address) (id : Nat) (ts : Trace supply) : Prop :=
  ∀ t ∈ ts, ballot asset id t ≠ none → ∀ config ∈ getGovConfig t.before.storage, config.token = asset

def sends (t : Transition (World supply) Event) : Option Address :=
  match t.input with
  | .transfer sender _ _ => some sender
  | .call _ _ => none

-- Nobody sends the token between a vote of its own on the proposal and another vote on it.
def Held (asset : Address) (id : Nat) (ts : Trace supply) : Prop :=
  ∀ n < ts.length, ∀ t ∈ ts[n]?, ∀ a ∈ sends t, a ∈ voters asset id (ts.take n) → ballots asset id (ts.drop (n + 1)) = []

instance {ts : Trace supply} : Decidable (Governed asset id ts) := by
  unfold Governed
  infer_instance

instance {ts : Trace supply} : Decidable (Held asset id ts) := by
  unfold Held
  infer_instance

theorem Held.split (held : Held asset id ts) (cut : ts = earlier ++ t :: later) (sending : a ∈ sends t)
    (voted : a ∈ voters asset id earlier) : ballots asset id later = [] := by
  subst cut
  have rest := held earlier.length (by simp) t (by simp) a sending
  simp only [List.take_left,voted,true_implies] at rest
  simpa using rest

theorem Held.front (held : Held asset id (ts ++ [last])) (silent : ballot asset id last = none) : Held asset id ts := by
  intro n _ t here a sending voted
  obtain ⟨_,rfl⟩ := List.getElem?_eq_some_iff.mp here
  have whole : ts.take n ++ ts[n] :: ts.drop (n + 1) = ts := by simp
  have cut : ts ++ [last] = ts.take n ++ ts[n] :: (ts.drop (n + 1) ++ [last]) := by
    rw [← List.cons_append,← List.append_assoc,whole]
  have quiet := held.split cut sending voted
  rw [ballots_snoc,silent] at quiet
  simpa using quiet

theorem Governed.front (governed : Governed asset id (ts ++ [last])) : Governed asset id ts :=
  fun t mem => governed t (List.mem_append_left _ mem)

theorem ballot_balance (voting : ballot asset id t = some b)
    (governed : ∀ config ∈ getGovConfig t.before.storage, config.token = asset) : b.2 = t.before.token.balance b.1 := by
  unfold ballot at voting
  split at voting
  · obtain ⟨_,config,_,conf,power⟩ := cast_parts voting
    rw [power]
    simp [votingPower,view,governed config conf]
  · cases voting

def Covered (asset : Address) (id : Nat) (ts : Trace supply) (w : World supply) : Prop :=
  ∀ b ∈ ballots asset id ts, b.2 ≤ w.token.balance b.1

theorem step_covered (ran : step asset w event = .ok next)
    (governed : Governed asset id (ts ++ [⟨w,event,next⟩])) (covered : Covered asset id ts w)
    (still : ∀ a ∈ sends ⟨w,event,next⟩, a ∉ voters asset id ts) : Covered asset id (ts ++ [⟨w,event,next⟩]) next := by
  intro b voted
  rw [ballots_snoc] at voted
  cases event with
  | call =>
    rw [(call_parts ran).2]
    rcases List.mem_append.mp voted with old | last
    · exact covered b old
    · have voting := Option.mem_toList.mp last
      have inForce := governed _ List.mem_concat_self (by simp [Option.mem_def.mp voting])
      exact Int.le_of_eq (ballot_balance voting inForce)
  | transfer sender =>
    simp only [ballot,Option.toList_none,List.append_nil] at voted
    have other : b.1 ≠ sender := by
      rintro rfl
      exact still _ rfl (List.mem_map_of_mem voted)
    exact (covered b voted).trans (Token.send_keeps (transfer_parts ran).2 other)

theorem runs_covered (path : Run (step asset) ⟨empty,token⟩ ts w) (governed : Governed asset id ts)
    (still : ∀ earlier t later, ts = earlier ++ t :: later → ∀ a ∈ sends t, a ∉ voters asset id earlier) :
    Covered asset id ts w := by
  induction path with
  | nil => simp [Covered,ballots]
  | @snoc ts w event next prior ran ih =>
    have covered := ih governed.front (fun earlier t later cut => still earlier t (later ++ [⟨w,event,next⟩]) (by simp [cut]))
    exact step_covered ran governed covered (still ts _ [] rfl)

theorem ballots_bounded {token : Token Address supply} (path : Run (step asset) ⟨empty,token⟩ ts w)
    (governed : Governed asset id ts) (held : Held asset id ts) : ((ballots asset id ts).map snd).sum ≤ supply := by
  induction path with
  | nil => exact token.covered_le List.nodup_nil (by simp [ballots])
  | @snoc ts w event next prior ran ih =>
    cases voting : ballot asset id ⟨w,event,next⟩ with
    | none =>
      rw [ballots_snoc,voting,Option.toList_none,List.append_nil]
      exact ih governed.front (held.front voting)
    | some =>
      have still : ∀ earlier t later, ts = earlier ++ t :: later → ∀ a ∈ sends t, a ∉ voters asset id earlier := by
        intro earlier t later cut a sending voted
        have whole : ts ++ [⟨w,event,next⟩] = earlier ++ t :: (later ++ [⟨w,event,next⟩]) := by simp [cut]
        have silent := held.split whole sending voted
        simp [ballots_snoc,voting] at silent
      have calling : ∀ a ∈ sends ⟨w,event,next⟩, a ∉ voters asset id ts := by
        cases event with
        | call => simp [sends]
        | transfer => simp [ballot] at voting
      have covered := step_covered ran governed (runs_covered prior governed.front still) calling
      exact next.token.covered_le (runs_tallied (.snoc prior ran) id).once covered

theorem votes_backed {token : Token Address supply} (path : Run (step asset) ⟨empty,token⟩ ts w)
    (stored : getGovProposal w.storage id = some p) :
    p.votesFor + p.votesAgainst = ((ballots asset id ts).map snd).sum ∧ (voters asset id ts).Nodup ∧
      (Governed asset id ts → (∀ b ∈ ballots asset id ts, b.2 ≤ supply) ∧
        (Held asset id ts → p.votesFor + p.votesAgainst ≤ supply)) := by
  have tallied := runs_tallied path id
  have sum := tallied.sum
  rw [stored] at sum
  refine ⟨sum,tallied.once,fun governed => ⟨?_,?_⟩⟩
  · intro b voted
    obtain ⟨t,present,voting⟩ := List.mem_filterMap.mp voted
    rw [ballot_balance voting (governed t present (by simp [voting]))]
    exact t.before.token.balance_le b.1
  · intro held
    have bounded := ballots_bounded path governed held
    rwa [← sum] at bounded

namespace Sample
open GovernanceLifecycle.Sample

def asset : Address := .repeated 0x54

def token : Token Address 150 where
  balance account := if account = alice then 100 else if account = bob then 50 else 0
  holders := {alice,bob}
  nonneg := by
    intro account
    split
    · decide
    · split <;> decide
  absent := by
    intro account outside
    simp only [Finset.mem_insert,Finset.mem_singleton,not_or] at outside
    simp [outside.1,outside.2]
  total := by decide

def opening : List Event :=
  [.call (env 0) (.initializeGovernance alice (config 100)),.call (env 0) (.propose alice (.setTrustedAsset [0x58] true) [])]

def run (events : List Event) : Outcome (Trace 150 × World 150) :=
  Runs.replay (step asset) ⟨empty,token⟩ (opening ++ events)

def votes (w : World 150) : Option (Int × Int) := (getGovProposal w.storage 1).map (fun p => (p.votesFor,p.votesAgainst))

theorem votes_stored (counts : votes w = some (yes,no)) :
    ∃ p, getGovProposal w.storage 1 = some p ∧ p.votesFor = yes ∧ p.votesAgainst = no := by
  obtain ⟨p,has,same⟩ := Option.map_eq_some_iff.mp counts
  cases same
  exact ⟨p,has,rfl,rfl⟩

def patient : List Event :=
  [.call (env 10) (.vote alice 1 true),.call (env 20) (.vote bob 1 false),.transfer alice bob 100]

-- The same 100 tokens vote twice.
def hasty : List Event :=
  [.call (env 10) (.vote alice 1 true),.transfer alice bob 100,.call (env 20) (.vote bob 1 true)]
end Sample

open Sample

theorem patient_votes_backed : ∃ ts w p, Run (step asset) ⟨empty,token⟩ ts w ∧
    Governed asset 1 ts ∧ Held asset 1 ts ∧ getGovProposal w.storage 1 = some p ∧
      p.votesFor = 100 ∧ p.votesAgainst = 50 ∧ p.votesFor + p.votesAgainst ≤ 150 := by
  have replayed : (run patient).map (fun result => (decide (Governed asset 1 result.1),
      decide (Held asset 1 result.1),votes result.2)) = .ok (true,true,some (100,50)) := by decide +kernel
  obtain ⟨ts,w,path,seen⟩ := Runs.replay_observed replayed
  simp only [mk.injEq,decide_eq_true_eq] at seen
  obtain ⟨governed,held,counts⟩ := seen
  obtain ⟨p,stored,yes,no⟩ := votes_stored counts
  exact ⟨ts,w,p,path,governed,held,stored,yes,no,((votes_backed path stored).2.2 governed).2 held⟩

theorem tokens_voted_twice : ∃ ts w p, Run (step asset) ⟨empty,token⟩ ts w ∧
    Governed asset 1 ts ∧ getGovProposal w.storage 1 = some p ∧ 150 < p.votesFor + p.votesAgainst := by
  have replayed : (run hasty).map (fun result => (decide (Governed asset 1 result.1),
      votes result.2)) = .ok (true,some (250,0)) := by decide +kernel
  obtain ⟨ts,w,path,seen⟩ := Runs.replay_observed replayed
  simp only [mk.injEq,decide_eq_true_eq] at seen
  obtain ⟨governed,counts⟩ := seen
  obtain ⟨p,stored,_⟩ := votes_stored counts
  exact ⟨ts,w,p,path,governed,stored,by omega⟩

end StellarPriceOracle.VotingPower
