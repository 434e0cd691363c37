import Mathlib.Data.List.Nodup
import Mathlib.Logic.Relation

-- Jobs wait in lanes; the head of a lane may be tried, one job of a lane at a time.
namespace Dispatch
open List hiding after

structure Flight where
  (lane job attempt : Nat)
  deriving DecidableEq

inductive Outcome where
  | delivered | exhausted (attempt : Nat) | dropped | discarded
  deriving DecidableEq

inductive Note where
  | started (lane job attempt : Nat)
  | ended (lane job : Nat) (outcome : Outcome)
  deriving DecidableEq

def Note.lane : Note → Nat
  | .started lane _ _ => lane
  | .ended lane _ _ => lane

@[ext] structure Board where
  queue : Nat → List Nat
  busy : Nat → Bool
  inFlight : Int
  flights : List Flight
  tries : Nat → Nat
  settled : Nat → Bool
  succeeded : Nat → Bool
  issued : Nat
  log : List Note

open Function (update comp_def update_self update_of_ne)

namespace Board
@[simp] def empty : Board := ⟨fun _ => [],fun _ => false,0,[],fun _ => 0,fun _ => false,fun _ => false,0,[]⟩

variable (b : Board)

@[simp] def push (lane : Nat) : Board := {b with
  queue := update b.queue lane (b.queue lane ++ [b.issued])
  tries := update b.tries b.issued 0
  settled := update b.settled b.issued false
  succeeded := update b.succeeded b.issued false
  issued := b.issued + 1}

@[simp] def start (lane job : Nat) : Board := {b with
  busy := update b.busy lane true
  inFlight := b.inFlight + 1
  flights := b.flights ++ [⟨lane,job,b.tries job + 1⟩]
  tries := update b.tries job (b.tries job + 1)
  log := b.log ++ [.started lane job (b.tries job + 1)]}

def land (flight : Flight) (others : List Flight) : Board := {b with
  busy := update b.busy flight.lane false
  inFlight := b.inFlight - 1
  flights := others}

@[simp] def finish (lane job : Nat) (outcome : Outcome) (rest : List Nat) : Board := {b with
  queue := update b.queue lane rest
  settled := update b.settled job true
  log := b.log ++ [.ended lane job outcome]}

def succeed (job : Nat) : Board := {b with succeeded := update b.succeeded job true}

@[simp] def discard (lane : Nat) : Board := {b with
  queue := update b.queue lane []
  settled := fun job => if job ∈ b.queue lane then true else b.settled job
  log := b.log ++ (b.queue lane).map (fun job => .ended lane job .discarded)}
end Board

-- What can happen. Under `strict` no job is dropped or discarded from a busy lane.
inductive Move (capacity : Int) (again : Nat → Prop) (strict : Prop) : Board → Board → Prop where
  | push (b lane) : Move capacity again strict b (b.push lane)
  | drop (b lane job rest) (head : b.queue lane = job :: rest) (idle : strict → b.busy lane = false) :
      Move capacity again strict b (b.finish lane job .dropped rest)
  | start (b lane job rest) (head : b.queue lane = job :: rest) (idle : b.busy lane = false) (room : b.inFlight < capacity) :
      Move capacity again strict b (b.start lane job)
  | retry (b flight before after) (flies : b.flights = before ++ flight :: after) (more : again flight.attempt) :
      Move capacity again strict b (b.land flight (before ++ after))
  | deliver (b flight before after) (flies : b.flights = before ++ flight :: after) :
      Move capacity again strict b (((b.finish flight.lane flight.job .delivered (b.queue flight.lane).tail).succeed flight.job).land
        flight (before ++ after))
  | exhaust (b flight before after) (flies : b.flights = before ++ flight :: after) (last : ¬ again flight.attempt) :
      Move capacity again strict b ((b.finish flight.lane flight.job (.exhausted flight.attempt) (b.queue flight.lane).tail).land
        flight (before ++ after))
  | discard (b lane) (idle : strict → b.busy lane = false) : Move capacity again strict b (b.discard lane)

abbrev Moves (capacity : Int) (again : Nat → Prop) (strict : Prop) := Relation.ReflTransGen (Move capacity again strict)

def Note.starts (job : Nat) : Note → Bool
  | .started _ other _ => other = job
  | _ => false

def Note.first (lane : Nat) : Note → Option Nat
  | .started l job 1 => if l = lane then some job else none
  | _ => none

@[simp] def Note.ending (job : Nat) : Note → Option Outcome
  | .ended _ other outcome => if other = job then some outcome else none
  | _ => none

def starts (log : List Note) (job : Nat) : Nat := log.countP (Note.starts job)

def firsts (log : List Note) (lane : Nat) : List Nat := log.filterMap (Note.first lane)

def endings (log : List Note) (job : Nat) : List Outcome := log.filterMap (Note.ending job)

-- What holds of every board that is reached, strict or not.
structure Standing (capacity : Int) (limit : Nat) (b : Board) : Prop where
  counted : b.inFlight = b.flights.length
  bounded : b.inFlight ≤ capacity
  busy : ∀ lane, b.busy lane = true ↔ lane ∈ b.flights.map Flight.lane
  alone : (b.flights.map Flight.lane).Nodup
  issued : ∀ lane, ∀ job ∈ b.queue lane, job < b.issued
  ordered : ∀ lane, (b.queue lane).Pairwise (· < ·)
  home : ∀ lane other job, job ∈ b.queue lane → job ∈ b.queue other → lane = other
  aloft : ∀ f ∈ b.flights, (f.job < b.issued ∧ f.attempt = b.tries f.job) ∧
    ∀ lane, f.job ∈ b.queue lane → lane = f.lane ∧ (b.queue lane).head? = some f.job
  limited : ∀ job, b.tries job ≤ limit
  ready : ∀ lane, ∀ job ∈ b.queue lane, b.tries job < limit ∨ job ∈ b.flights.map Flight.job
  tried : ∀ job, starts b.log job = if job < b.issued then b.tries job else 0
  first : ∀ lane, (firsts b.log lane).Pairwise (· < ·) ∧ ∀ job ∈ firsts b.log lane, job < b.issued ∧
    ∀ other ∈ b.queue lane, b.tries other = 0 → job < other
  begun : ∀ f ∈ b.flights, 0 < f.attempt

-- While nothing is taken from a busy lane, a job either waits or has ended in one way.
structure Accounted (again : Nat → Prop) (b : Board) : Prop where
  heads : ∀ f ∈ b.flights, (b.queue f.lane).head? = some f.job
  waiting : ∀ lane, ∀ job ∈ b.queue lane, b.settled job = false ∧ b.succeeded job = false ∧ endings b.log job = []
  unborn : ∀ job, b.issued ≤ job → endings b.log job = []
  left : ∀ job, job < b.issued → (∀ lane, job ∉ b.queue lane) → b.settled job = true ∧ ∃ outcome,
    endings b.log job = [outcome] ∧ (b.succeeded job = true ↔ outcome = .delivered) ∧
    ∀ attempt, outcome = .exhausted attempt → (¬ again attempt ∧ 0 < attempt) ∧ attempt = b.tries job

theorem starts_started : starts (log ++ [.started lane job attempt]) other = starts log other + if other = job then 1 else 0 := by
  simp only [starts,countP_append,countP_singleton,Note.starts,decide_eq_true_eq]
  by_cases here : job = other
  · simp [here]
  · simp [here,Ne.symm here]

theorem starts_ended (jobs : List Nat) (other : Nat) :
    starts (log ++ jobs.map (fun job => .ended lane job outcome)) other = starts log other := by
  simp [starts,countP_append,countP_map,comp_def,Note.starts]

theorem firsts_started : firsts (log ++ [.started lane job attempt]) other =
    firsts log other ++ if attempt = 1 ∧ lane = other then [job] else [] := by
  rw [firsts,filterMap_append]
  congr 1
  rcases eq_or_ne attempt 1 with rfl | once
  · by_cases here : lane = other <;> simp [Note.first,here]
  · have later : Note.first other (.started lane job attempt) = none := by
      unfold Note.first
      split
      · rename_i same
        cases same
        exact absurd rfl once
      · rfl
    simp [later,once]

theorem firsts_ended (jobs : List Nat) (other : Nat) :
    firsts (log ++ jobs.map (fun job => .ended lane job outcome)) other = firsts log other := by
  simp [firsts,filterMap_append,filterMap_map,comp_def,Note.first]

theorem endings_started : endings (log ++ [.started lane job attempt]) other = endings log other := by
  simp [endings,filterMap_append]

theorem endings_ended : endings (log ++ [.ended lane job outcome]) other =
    endings log other ++ if job = other then [outcome] else [] := by
  rw [endings,filterMap_append]
  congr 1
  by_cases here : job = other <;> simp [here]

section
variable {b : Board}

theorem Standing.tail_queue (standing : Standing capacity limit b) (flies : f ∈ b.flights) : f.job ∉ (b.queue lane).tail := by
  intro later
  obtain ⟨_,head⟩ := (standing.aloft f flies).2 lane (mem_of_mem_tail later)
  have ordered := standing.ordered lane
  cases held : b.queue lane with
  | nil => simp [held] at head
  | cons =>
    rw [held] at head later ordered
    cases head
    exact Nat.lt_irrefl _ ((pairwise_cons.mp ordered).1 f.job later)

theorem queue_shrinks {queue : Nat → List Nat} (fewer : ∀ job ∈ rest, job ∈ queue lane) (other : Nat) :
    ∀ job ∈ update queue lane rest other, job ∈ queue other := by
  intro job mem
  rcases eq_or_ne other lane with rfl | here
  · rw [update_self] at mem
    exact fewer job mem
  · rwa [update_of_ne here] at mem

theorem mem_push : job ∈ (b.push lane).queue other ↔ job ∈ b.queue other ∨ (other = lane ∧ job = b.issued) := by
  rcases eq_or_ne other lane with rfl | here
  · simp
  · simp [here]

-- The new job has a number beyond all others and has not been tried.
theorem push_standing (pos : 0 < limit) (standing : Standing capacity limit b) : Standing capacity limit (b.push lane) := by
  have old : ∀ job < b.issued, (b.push lane).tries job = b.tries job := by
    intro job before
    exact update_of_ne (Nat.ne_of_lt before) ..
  refine ⟨standing.counted,standing.bounded,standing.busy,standing.alone,?_,?_,?_,?_,?_,?_,?_,?_,standing.begun⟩
  · intro other job listed
    rcases mem_push.mp listed with held | ⟨_,rfl⟩
    · exact Nat.lt_succ_of_lt (standing.issued other job held)
    · exact Nat.lt_succ_self _
  · intro other
    rcases eq_or_ne other lane with rfl | here
    · simp only [Board.push,update_self,pairwise_append]
      refine ⟨standing.ordered other,pairwise_singleton .., ?_⟩
      intro job held new mem
      rw [mem_singleton.mp mem]
      exact standing.issued other job held
    · simp only [Board.push,update_of_ne here]
      exact standing.ordered other
  · intro first second job listed held
    rcases mem_push.mp listed with mine | ⟨here,rfl⟩ <;> rcases mem_push.mp held with yours | ⟨there,new⟩
    · exact standing.home first second job mine yours
    · exact absurd (standing.issued first job mine) (by simp [new])
    · exact absurd (standing.issued second _ yours) (Nat.lt_irrefl _)
    · rw [here,there]
  · intro f flies
    obtain ⟨⟨known,attempt⟩,heads⟩ := standing.aloft f flies
    refine ⟨⟨Nat.lt_succ_of_lt known,attempt.trans (old f.job known).symm⟩,?_⟩
    intro other listed
    rcases mem_push.mp listed with held | ⟨_,new⟩
    · obtain ⟨same,head⟩ := heads other held
      refine ⟨same,?_⟩
      rcases eq_or_ne other lane with rfl | here
      · simp [update_self,List.head?_append,head]
      · simp [update_of_ne here,head]
    · exact absurd known (by simp [new])
  · intro job
    by_cases here : job = b.issued
    · simp [here]
    · simp only [Board.push,update_of_ne here]
      exact standing.limited job
  · intro other job listed
    rcases mem_push.mp listed with held | ⟨_,rfl⟩
    · rw [old job (standing.issued other job held)]
      exact standing.ready other job held
    · exact .inl (by simpa using pos)
  · intro job
    have counted := standing.tried job
    by_cases here : job = b.issued
    · simpa [here] using counted
    · have same : job < b.issued + 1 ↔ job < b.issued := by omega
      simpa [update_of_ne here,same] using counted
  · intro other
    obtain ⟨sorted,bound⟩ := standing.first other
    refine ⟨sorted,fun job early => ⟨Nat.lt_succ_of_lt (bound job early).1,?_⟩⟩
    intro k listed untried
    rcases mem_push.mp listed with held | ⟨_,rfl⟩
    · rw [old k (standing.issued other k held)] at untried
      exact (bound job early).2 k held untried
    · exact (bound job early).1

section
variable (standing : Standing capacity limit b)
include standing

theorem land_standing (flies : b.flights = before ++ flight :: after) (free : ∀ lane, flight.job ∈ b.queue lane → b.tries flight.job < limit) :
    Standing capacity limit (b.land flight (before ++ after)) := by
  have apart := standing.alone
  rw [flies,map_append,map_cons,nodup_middle,nodup_cons] at apart
  have others : ∀ f ∈ before ++ after, f ∈ b.flights := by
    intro f mem
    rw [flies]
    simp only [mem_append,mem_cons] at mem ⊢
    tauto
  refine ⟨?_,?_,?_,?_,standing.issued,standing.ordered,standing.home,?_,standing.limited,?_,standing.tried,standing.first,
    fun f mem => standing.begun f (others f mem)⟩
  · have counted := standing.counted
    rw [flies] at counted
    simp only [Board.land,length_append,length_cons] at counted ⊢
    omega
  · have bounded := standing.bounded
    simp only [Board.land]
    omega
  · intro lane
    rcases eq_or_ne lane flight.lane with rfl | here
    · simp only [Board.land,update_self,Bool.false_eq_true,false_iff,map_append]
      exact apart.1
    · simp only [Board.land,update_of_ne here,standing.busy lane,flies,map_append,map_cons,mem_append,
        mem_cons,here,false_or]
  · simpa [Board.land] using apart.2
  · intro f mem
    exact standing.aloft f (others f mem)
  · intro lane job listed
    rcases standing.ready lane job listed with few | flying
    · exact .inl few
    · rw [flies,map_append,map_cons,mem_append,mem_cons] at flying
      rcases flying with first | rfl | second
      · exact .inr (by simp only [Board.land,map_append,mem_append]; exact .inl first)
      · exact .inl (free lane listed)
      · exact .inr (by simp only [Board.land,map_append,mem_append]; exact .inr second)

-- Taking jobs from a lane keeps the order and the flights.
theorem leave_standing {rest : List Nat} (fewer : rest.Sublist (b.queue lane))
    (apart : ∀ f ∈ b.flights, f.job ∉ rest) (sameStarts : ∀ job, starts log job = starts b.log job)
    (sameFirsts : ∀ lane, firsts log lane = firsts b.log lane) :
    Standing capacity limit {b with queue := update b.queue lane rest, settled := settled, log := log} := by
  have shrinks := queue_shrinks (fun _ mem => fewer.subset mem)
  refine ⟨standing.counted,standing.bounded,standing.busy,standing.alone,?_,?_,?_,?_,standing.limited,?_,?_,?_,standing.begun⟩
  · intro other k mem
    exact standing.issued other k (shrinks other k mem)
  · intro other
    rcases eq_or_ne other lane with rfl | here
    · simp only [update_self]
      exact (standing.ordered other).sublist fewer
    · simp only [update_of_ne here]
      exact standing.ordered other
  · intro first second k mem held
    exact standing.home first second k (shrinks first k mem) (shrinks second k held)
  · intro f flies
    obtain ⟨known,heads⟩ := standing.aloft f flies
    refine ⟨known,fun other mem => ?_⟩
    rcases eq_or_ne other lane with rfl | here
    · simp only [update_self] at mem
      exact absurd mem (apart f flies)
    · simp only [update_of_ne here] at mem ⊢
      exact heads other mem
  · intro other k mem
    exact standing.ready other k (shrinks other k mem)
  · intro k
    exact (sameStarts k).trans (standing.tried k)
  · intro other
    obtain ⟨sorted,bound⟩ := standing.first other
    dsimp only
    rw [sameFirsts]
    exact ⟨sorted,fun k early => ⟨(bound k early).1,fun j mem => (bound k early).2 j (shrinks other j mem)⟩⟩

theorem finish_standing (lane job : Nat) (outcome : Outcome) :
    Standing capacity limit (b.finish lane job outcome (b.queue lane).tail) :=
  leave_standing standing (tail_sublist _) (fun _ flies => standing.tail_queue flies) (starts_ended [job]) (firsts_ended [job])

theorem discard_standing : Standing capacity limit (b.discard lane) :=
  leave_standing standing (nil_sublist _) (by simp) (starts_ended (b.queue lane)) (firsts_ended (b.queue lane))

end

theorem start_tries : (b.start lane job).tries k = if k = job then b.tries job + 1 else b.tries k := by
  simp [Function.update_apply]

variable {strict : Prop}

theorem start_accounted (accounted : Accounted again b) (head : b.queue lane = job :: rest) : Accounted again (b.start lane job) := by
  refine ⟨?_,?_,?_,?_⟩
  · intro f flies
    simp only [Board.start,mem_append,mem_singleton] at flies
    rcases flies with old | rfl
    · exact accounted.heads f old
    · simp [head]
  · intro other k mem
    simpa [endings_started] using accounted.waiting other k mem
  · intro k later
    simpa [endings_started] using accounted.unborn k later
  · intro k known away
    have ne : k ≠ job := by
      rintro rfl
      exact away lane (by simp [head])
    simpa [endings_started,update_of_ne ne] using accounted.left k known away

theorem land_accounted (accounted : Accounted again b) (fewer : ∀ f ∈ others, f ∈ b.flights) :
    Accounted again (b.land flight others) :=
  ⟨fun f flies => accounted.heads f (fewer f flies),accounted.waiting,accounted.unborn,accounted.left⟩

theorem endings_discarded {jobs : List Nat} (distinct : jobs.Nodup) :
    endings (log ++ jobs.map (fun job => .ended lane job .discarded)) other =
      endings log other ++ if other ∈ jobs then [.discarded] else [] := by
  rw [endings,filterMap_append]
  congr 1
  induction jobs with
  | nil => rfl
  | cons first _ ih =>
    obtain ⟨apart,distinct⟩ := nodup_cons.mp distinct
    rw [map_cons,filterMap_cons,ih distinct]
    rcases eq_or_ne first other with rfl | here
    · simp [apart]
    · simp [here,Ne.symm here]

section
variable (standing : Standing capacity limit b)
include standing

section
variable (idle : b.busy lane = false)
include idle

theorem Standing.free : lane ∉ b.flights.map Flight.lane := by
  rw [← standing.busy lane,idle]
  simp

theorem Standing.grounded (mem : job ∈ b.queue lane) : ∀ f ∈ b.flights, f.job ≠ job := by
  rintro f flies rfl
  obtain ⟨rfl,_⟩ := (standing.aloft f flies).2 lane mem
  exact standing.free idle (mem_map_of_mem flies)

theorem Standing.startable (mem : job ∈ b.queue lane) : b.tries job < limit := by
  rcases standing.ready lane job mem with few | flying
  · exact few
  · obtain ⟨f,flies,same⟩ := mem_map.mp flying
    exact absurd same (standing.grounded idle mem f flies)

end

section
variable (head : b.queue lane = job :: rest)
include head

theorem start_aloft (idle : b.busy lane = false) :
    ∀ f ∈ (b.start lane job).flights, (f.job < b.issued ∧ f.attempt = (b.start lane job).tries f.job) ∧
      ∀ other, f.job ∈ b.queue other → other = f.lane ∧ (b.queue other).head? = some f.job := by
  have listed : job ∈ b.queue lane := by simp [head]
  intro f flies
  simp only [Board.start,mem_append,mem_singleton] at flies
  rcases flies with old | rfl
  · obtain ⟨⟨known,attempt⟩,heads⟩ := standing.aloft f old
    refine ⟨⟨known,?_⟩,heads⟩
    rw [start_tries,if_neg (standing.grounded idle listed f old)]
    exact attempt
  · refine ⟨⟨standing.issued lane job listed,by rw [start_tries,if_pos rfl]⟩,?_⟩
    intro other mem
    have same := standing.home other lane job mem listed
    subst same
    exact ⟨rfl,by simp [head]⟩

-- The first attempts of a lane are in the order of its queue.
theorem start_first (other : Nat) :
    (firsts (b.start lane job).log other).Pairwise (· < ·) ∧ ∀ k ∈ firsts (b.start lane job).log other, k < b.issued ∧
      ∀ j ∈ b.queue other, (b.start lane job).tries j = 0 → k < j := by
  have listed : job ∈ b.queue lane := by simp [head]
  have behind : ∀ k ∈ rest, job < k := by
    have ordered := standing.ordered lane
    rw [head] at ordered
    exact (pairwise_cons.mp ordered).1
  have untried : ∀ k, (b.start lane job).tries k = 0 → k ≠ job ∧ b.tries k = 0 := by
    intro k zero
    rw [start_tries] at zero
    split at zero
    · cases zero
    · rename_i ne
      exact ⟨ne,zero⟩
  obtain ⟨sorted,bound⟩ := standing.first other
  rw [show firsts (b.start lane job).log other = _ from firsts_started]
  split
  · rename_i new
    obtain ⟨_,rfl⟩ := new
    have fresh : b.tries job = 0 := by omega
    refine ⟨?_,?_⟩
    · rw [pairwise_append]
      refine ⟨sorted,pairwise_singleton ..,?_⟩
      intro k early j new
      rw [mem_singleton.mp new]
      exact (bound k early).2 job listed fresh
    · intro k early
      rcases mem_append.mp early with old | new
      · exact ⟨(bound k old).1,fun j mem zero => (bound k old).2 j mem (untried j zero).2⟩
      · rw [mem_singleton.mp new]
        refine ⟨standing.issued lane job listed,fun j mem zero => ?_⟩
        rw [head] at mem
        exact behind j ((mem_cons.mp mem).resolve_left (untried j zero).1)
  · rw [append_nil]
    exact ⟨sorted,fun k early => ⟨(bound k early).1,fun j mem zero => (bound k early).2 j mem (untried j zero).2⟩⟩

theorem start_standing (idle : b.busy lane = false) (room : b.inFlight < capacity) : Standing capacity limit (b.start lane job) := by
  have listed : job ∈ b.queue lane := by simp [head]
  refine ⟨?_,?_,?_,?_,standing.issued,standing.ordered,standing.home,start_aloft standing head idle,?_,?_,?_,start_first standing head,?_⟩
  · have counted := standing.counted
    simp only [Board.start,length_append,length_singleton]
    omega
  · simp only [Board.start]
    omega
  · intro other
    by_cases here : other = lane
    · simp [here]
    · simp [here,standing.busy other]
  · simp only [Board.start,map_append,map_cons,map_nil,nodup_append]
    refine ⟨standing.alone,nodup_singleton _,?_⟩
    rintro other mem _ new rfl
    rw [mem_singleton.mp new] at mem
    exact standing.free idle mem
  · intro k
    rw [start_tries]
    split
    · exact standing.startable idle listed
    · exact standing.limited k
  · intro other k mem
    rw [start_tries]
    split
    · rename_i same
      exact .inr (by simp [same])
    · rcases standing.ready other k mem with fewer | flying
      · exact .inl fewer
      · refine .inr ?_
        simp only [Board.start,map_append,mem_append]
        exact .inl flying
  · intro k
    have counted := standing.tried k
    rw [start_tries]
    simp only [Board.start,starts_started,counted]
    by_cases same : k = job
    · simp [same,standing.issued lane job listed]
    · simp [same]
  · intro f flies
    simp only [Board.start,mem_append,mem_singleton] at flies
    rcases flies with old | rfl
    · exact standing.begun f old
    · exact Nat.succ_pos _

end

theorem succeed_standing : Standing capacity limit (b.succeed job) :=
  {standing with}

theorem Standing.gone (flies : flight ∈ b.flights) (other : Nat) :
    flight.job ∉ update b.queue flight.lane (b.queue flight.lane).tail other := by
  rcases eq_or_ne other flight.lane with rfl | here
  · rw [update_self]
    exact standing.tail_queue flies
  · rw [update_of_ne here]
    intro mem
    exact here ((standing.aloft flight flies).2 other mem).1

theorem move_standing (pos : 0 < limit) (few : ∀ attempt, again attempt → attempt < limit)
    (move : Move capacity again strict b b') : Standing capacity limit b' := by
  cases move with
  | push => exact push_standing pos standing
  | drop lane job _ head =>
    have leaves := finish_standing standing lane job .dropped
    rwa [head,tail_cons] at leaves
  | start _ _ _ head idle room => exact start_standing standing head idle room
  | retry flight _ _ flies more =>
    apply land_standing standing flies
    intro lane _
    have flying : flight ∈ b.flights := by simp [flies]
    rw [← (standing.aloft flight flying).1.2]
    exact few _ more
  | deliver flight _ _ flies =>
    have flying : flight ∈ b.flights := by simp [flies]
    apply land_standing (succeed_standing (finish_standing standing _ _ _)) flies
    intro lane mem
    exact absurd mem (standing.gone flying lane)
  | exhaust flight _ _ flies =>
    have flying : flight ∈ b.flights := by simp [flies]
    apply land_standing (finish_standing standing _ _ _) flies
    intro lane mem
    exact absurd mem (standing.gone flying lane)
  | discard => exact discard_standing standing

theorem moves_standing (pos : 0 < limit) (few : ∀ attempt, again attempt → attempt < limit)
    (moves : Moves capacity again strict b b') : Standing capacity limit b' := by
  induction moves with
  | refl => exact standing
  | tail _ move ih => exact move_standing ih pos few move

section
variable (accounted : Accounted again b)
include accounted

theorem push_accounted : Accounted again (b.push lane) := by
  refine ⟨?_,?_,?_,?_⟩
  · intro f flies
    have head := accounted.heads f flies
    by_cases here : f.lane = lane
    · simp [← here,update_self,List.head?_append,head]
    · simp [update_of_ne here,head]
  · intro other job mem
    rcases mem_push.mp mem with held | ⟨_,rfl⟩
    · have known := Nat.ne_of_lt (standing.issued other job held)
      simpa [update_of_ne known] using accounted.waiting other job held
    · simpa using accounted.unborn b.issued (Nat.le_refl _)
  · intro job later
    exact accounted.unborn job (Nat.le_of_succ_le later)
  · intro job known away
    have ne : job ≠ b.issued := by
      rintro rfl
      exact away lane (mem_push.mpr (.inr ⟨rfl,rfl⟩))
    have before : job < b.issued := Nat.lt_of_le_of_ne (Nat.lt_succ_iff.mp known) ne
    simpa [update_of_ne ne] using
      accounted.left job before (fun other mem => away other (mem_push.mpr (.inl mem)))

-- The job that ends is the head of its lane, so no other is lost.
theorem finish_accounted (outcome : Outcome) (flights : List Flight) (succeeded : Nat → Bool) {rest : List Nat} (head : b.queue lane = job :: rest)
    (fewer : ∀ f ∈ flights, f ∈ b.flights ∧ f.lane ≠ lane) (others : ∀ k, k ≠ job → succeeded k = b.succeeded k) (own : succeeded job = true ↔ outcome = .delivered)
    (last : ∀ attempt, outcome = .exhausted attempt → (¬ again attempt ∧ 0 < attempt) ∧ attempt = b.tries job) :
    Accounted again {b.finish lane job outcome rest with flights := flights, succeeded := succeeded} := by
  have listed : job ∈ b.queue lane := by simp [head]
  have shrinks := queue_shrinks (fun k later => by rw [head]; exact mem_cons_of_mem job later : ∀ k ∈ rest, k ∈ b.queue lane)
  have behind : job ∉ rest := by
    have ordered := standing.ordered lane
    rw [head] at ordered
    exact fun later => Nat.lt_irrefl _ ((pairwise_cons.mp ordered).1 job later)
  refine ⟨?_,?_,?_,?_⟩
  · intro f flies
    obtain ⟨old,elsewhere⟩ := fewer f flies
    simpa [update_of_ne elsewhere] using accounted.heads f old
  · intro other k mem
    have before := shrinks other k mem
    have ne : k ≠ job := by
      rintro rfl
      have same := standing.home other lane k before listed
      subst same
      simp only [Board.finish,update_self] at mem
      exact behind mem
    simpa [endings_ended,update_of_ne ne,others k ne,Ne.symm ne] using
      accounted.waiting other k before
  · intro k later
    have known := standing.issued lane job listed
    have ne : job ≠ k := by
      rintro rfl
      exact absurd known (Nat.not_lt_of_le later)
    simpa [endings_ended,ne] using accounted.unborn k later
  · intro k known away
    rcases eq_or_ne k job with rfl | here
    · refine ⟨by simp,outcome,?_,own,last⟩
      simp [endings_ended,(accounted.waiting lane k listed).2.2]
    · have absent : ∀ other, k ∉ b.queue other := by
        intro other mem
        apply away other
        rcases eq_or_ne other lane with rfl | same
        · rw [head] at mem
          simpa [here] using mem
        · simpa [update_of_ne same] using mem
      simpa [endings_ended,update_of_ne here,others k here,Ne.symm here] using accounted.left k known absent

theorem discard_accounted (idle : b.busy lane = false) : Accounted again (b.discard lane) := by
  have distinct : (b.queue lane).Nodup := (standing.ordered lane).imp Nat.ne_of_lt
  have endings' (k : Nat) : endings (b.discard lane).log k = endings b.log k ++ if k ∈ b.queue lane then [.discarded] else [] :=
    endings_discarded distinct
  have elsewhere : ∀ other k, k ∈ (b.discard lane).queue other → k ∈ b.queue other ∧ k ∉ b.queue lane := by
    intro other k mem
    by_cases here : other = lane
    · simp [here] at mem
    · simp only [Board.discard,update_of_ne here] at mem
      exact ⟨mem,fun held => here (standing.home other lane k mem held)⟩
  refine ⟨?_,?_,?_,?_⟩
  · intro f flies
    have ne : f.lane ≠ lane := by
      rintro rfl
      have busy := (standing.busy f.lane).mpr (mem_map_of_mem flies)
      cases idle.symm.trans busy
    simpa [update_of_ne ne] using accounted.heads f flies
  · intro other k mem
    obtain ⟨held,away⟩ := elsewhere other k mem
    rw [endings',if_neg away,append_nil]
    simpa [away] using accounted.waiting other k held
  · intro k later
    have away : k ∉ b.queue lane := fun held => absurd (standing.issued lane k held) (Nat.not_lt_of_le later)
    rw [endings',if_neg away,append_nil]
    exact accounted.unborn k later
  · intro k known away
    rw [endings']
    by_cases here : k ∈ b.queue lane
    · obtain ⟨_,failed,none⟩ := accounted.waiting lane k here
      refine ⟨by simp [here],.discarded,by simp [none,here],?_,by simp⟩
      simp [failed]
    · have absent : ∀ other, k ∉ b.queue other := by
        intro other mem
        by_cases same : other = lane
        · exact here (same ▸ mem)
        · exact away other (by simpa [update_of_ne same] using mem)
      simpa [here] using accounted.left k known absent

theorem move_accounted (move : Move capacity again True b b') : Accounted again b' := by
  have landing : ∀ {flight before after}, b.flights = before ++ flight :: after →
      (b.queue flight.lane = flight.job :: (b.queue flight.lane).tail) ∧ (0 < flight.attempt ∧ flight.attempt = b.tries flight.job) ∧
      ∀ f ∈ before ++ after, f ∈ b.flights ∧ f.lane ≠ flight.lane := by
    intro flight before after flies
    have flying : flight ∈ b.flights := by simp [flies]
    refine ⟨(cons_head?_tail (accounted.heads flight flying)).symm,⟨standing.begun flight flying,(standing.aloft flight flying).1.2⟩,?_⟩
    intro f mem
    have apart := standing.alone
    rw [flies,map_append,map_cons,nodup_middle,nodup_cons,← map_append] at apart
    refine ⟨?_,fun same => apart.1 (same ▸ mem_map_of_mem mem)⟩
    rw [flies]
    simp only [mem_append,mem_cons] at mem ⊢
    tauto
  cases move with
  | push => exact push_accounted standing accounted
  | drop lane job _ head idle =>
    refine finish_accounted standing accounted .dropped b.flights b.succeeded head ?_ (fun _ _ => rfl) ?_ (by simp)
    · intro f flies
      refine ⟨flies,?_⟩
      rintro rfl
      have busy := (standing.busy f.lane).mpr (mem_map_of_mem flies)
      rw [idle trivial] at busy
      cases busy
    · simp [(accounted.waiting lane job (by simp [head])).2.1]
  | start _ _ _ head => exact start_accounted accounted head
  | retry _ _ _ flies =>
    apply land_accounted accounted
    intro f mem
    exact ((landing flies).2.2 f mem).1
  | deliver flight before after flies =>
    obtain ⟨head,_,fewer⟩ := landing flies
    have ended := finish_accounted standing accounted .delivered (before ++ after) (update b.succeeded flight.job true) head fewer
      (fun _ ne => update_of_ne ne ..) (by simp) (by simp)
    exact {ended with}
  | exhaust flight before after flies last =>
    obtain ⟨head,attempt,fewer⟩ := landing flies
    have failed : b.succeeded flight.job = false := (accounted.waiting flight.lane flight.job (by rw [head]; exact mem_cons_self)).2.1
    have ended := finish_accounted standing accounted (.exhausted flight.attempt) (before ++ after) b.succeeded head fewer
      (fun _ _ => rfl) (by simp [failed]) (by rintro n ⟨⟩; exact ⟨⟨last,attempt.1⟩,attempt.2⟩)
    exact {ended with}
  | discard _ idle => exact discard_accounted standing accounted (idle trivial)

theorem moves_accounted (pos : 0 < limit) (few : ∀ attempt, again attempt → attempt < limit) (moves : Moves capacity again True b b') : Accounted again b' := by
  induction moves with
  | refl => exact accounted
  | tail earlier move ih => exact move_accounted (moves_standing standing pos few earlier) ih move
end

end

end

theorem move_grows (move : Move capacity again strict b b') : b.log <+: b'.log ∧ b.issued ≤ b'.issued := by
  cases move with
  | push => exact ⟨prefix_rfl,Nat.le_succ _⟩
  | retry => exact ⟨prefix_rfl,Nat.le_refl _⟩
  | drop | start | deliver | exhaust | discard => exact ⟨prefix_append _ _,Nat.le_refl _⟩

theorem moves_grow (moves : Moves capacity again strict b b') : b.log <+: b'.log ∧ b.issued ≤ b'.issued := by
  induction moves with
  | refl => exact ⟨prefix_rfl,Nat.le_refl _⟩
  | tail _ move ih =>
    obtain ⟨log,issued⟩ := move_grows move
    exact ⟨ih.1.trans log,Nat.le_trans ih.2 issued⟩

-- The log only grows and a job ends once.
theorem settled_stays (before : Accounted again b) (after : Accounted again b') (log : b.log <+: b'.log) (issued : b.issued ≤ b'.issued)
    (known : job < b.issued) (settled : b.settled job = true) : b'.settled job = true ∧ b'.succeeded job = b.succeeded job := by
  have gone : ∀ lane, job ∉ b.queue lane := by
    intro lane mem
    rw [(before.waiting lane job mem).1] at settled
    cases settled
  obtain ⟨_,outcome,ended,succeeded,_⟩ := before.left job known gone
  obtain ⟨more,same⟩ := log
  have endings' : endings b'.log job = outcome :: endings more job := by
    rw [← same,endings,filterMap_append]
    exact congrArg (· ++ endings more job) ended
  have still : ∀ lane, job ∉ b'.queue lane := by
    intro lane mem
    rw [(after.waiting lane job mem).2.2] at endings'
    cases endings'
  obtain ⟨settled',_,ended',succeeded',_⟩ := after.left job (Nat.lt_of_lt_of_le known issued) still
  rw [endings'] at ended'
  obtain ⟨rfl,_⟩ := List.cons.inj ended'
  exact ⟨settled',by rw [Bool.eq_iff_iff,succeeded',succeeded]⟩

theorem empty_standing (some : 0 ≤ capacity) : Standing capacity limit .empty := by
  constructor <;> simp [starts,firsts,some]

theorem empty_accounted : Accounted again .empty := by
  constructor <;> simp [endings]

end Dispatch
