import Mathlib.Data.List.Basic
import Mathlib.Logic.Relation

-- A circuit breaker with one timer. After failures in a row it is open until a probe is due.
namespace Breaker
open List hiding after

inductive Mark where
  | start | success | failure
  deriving DecidableEq

abbrev Log := List (Int × Mark)

@[ext] structure State where
  now : Int
  opened : Option (Option Int)
  busy : Bool
  timed : Bool
  timeouts : List (Bool × Int)
  failures : Nat
  log : Log

-- What a host makes of a delay: one that is too long is taken for a short one.
def delay (longest ms : Int) : Int := if 1 ≤ ms ∧ ms ≤ longest then ms else 1

inductive Act (threshold cooldown longest : Int) : State → State → Prop where
  | wait (b ms) (forward : 0 ≤ ms) : Act threshold cooldown longest b {b with now := b.now + ms}
  | start (b) (shut : b.opened = none) (idle : b.busy = false) (untimed : b.timed = false) :
      Act threshold cooldown longest b {b with busy := true, log := b.log ++ [(b.now,.start)]}
  | arm (b probe) (opened : b.opened = some probe) (untimed : b.timed = false) :
      Act threshold cooldown longest b {b with
        timed := true, timeouts := b.timeouts ++ [(true,b.now + delay longest (max 0 (probe.getD b.now - b.now)))]}
  | fire (b probe due before after) (live : b.timeouts = before ++ (probe,due) :: after) (ripe : due ≤ b.now) :
      Act threshold cooldown longest b {b with
        timed := false, timeouts := before ++ after, opened := if probe then none else b.opened}
  | succeed (b) (current : Bool) (flying : b.busy = true) :
      Act threshold cooldown longest b {b with
        busy := false, failures := 0, log := b.log ++ [(b.now,.success)], opened := if current then none else b.opened}
  | retry (b due) (flying : b.busy = true) :
      Act threshold cooldown longest b {b with busy := false, timed := true, timeouts := b.timeouts ++ [(false,due)]}
  | fail (b) (flying : b.busy = true) (few : (b.failures + 1 : Int) < threshold) :
      Act threshold cooldown longest b {b with busy := false, failures := b.failures + 1, log := b.log ++ [(b.now,.failure)]}
  | trip (b) (flying : b.busy = true) (many : threshold ≤ (b.failures + 1 : Int)) :
      Act threshold cooldown longest b {b with
        busy := false, failures := b.failures + 1, log := b.log ++ [(b.now,.failure)], opened := some (some (b.now + cooldown))}

abbrev Acts (threshold cooldown longest : Int) := Relation.ReflTransGen (Act threshold cooldown longest)

def count (failures : Nat) (entry : Int × Mark) : Nat :=
  match entry.2 with
  | .start => failures
  | .success => 0
  | .failure => failures + 1

def streak (log : Log) : Nat := log.foldl count 0

def Trip (threshold : Int) (log : Log) (time : Int) : Prop :=
  ∃ earlier later, log = earlier ++ (time,.failure) :: later ∧ threshold ≤ streak (earlier ++ [(time,.failure)])

def Respects (threshold cooldown : Int) (log : Log) : Prop :=
  ∀ earlier time later, log = earlier ++ (time,.failure) :: later → threshold ≤ streak (earlier ++ [(time,.failure)]) →
    ∀ entry ∈ later, entry.2 = .start → time + cooldown ≤ entry.1

structure Sound (threshold cooldown : Int) (b : State) : Prop where
  single : b.timeouts.length ≤ 1
  timed : b.timeouts ≠ [] → b.timed = true ∧ b.busy = false
  shut : b.busy = true → b.opened = none
  armed : ∀ probe, b.opened = some probe → ∃ time, probe = some time ∧ time ≤ b.now + cooldown ∧
    ∀ due, (true,due) ∈ b.timeouts → time ≤ due
  cooled : ∀ time, Trip threshold b.log time →
    time + cooldown ≤ b.now ∨ ∃ probe, b.opened = some (some probe) ∧ time + cooldown ≤ probe
  respects : Respects threshold cooldown b.log
  counted : b.failures = streak b.log

theorem streak_snoc : streak (log ++ [(time,mark)]) = count (streak log) (time,mark) := by
  rw [streak,foldl_append]
  rfl

theorem trip_snoc (trips : Trip threshold (log ++ [(now,mark)]) time) :
    Trip threshold log time ∨ (mark = .failure ∧ time = now ∧ threshold ≤ streak (log ++ [(now,.failure)])) := by
  obtain ⟨earlier,later,split,many⟩ := trips
  rcases eq_nil_or_concat' later with rfl | ⟨rest,_,rfl⟩
  · obtain ⟨rfl,same⟩ := append_inj' split rfl
    cases same
    exact .inr ⟨rfl,rfl,many⟩
  · rw [← cons_append,← append_assoc] at split
    obtain ⟨rfl,_⟩ := append_inj' split rfl
    exact .inl ⟨earlier,rest,rfl,many⟩

theorem respects_snoc (respects : Respects threshold cooldown log)
    (late : mark = .start → ∀ time, Trip threshold log time → time + cooldown ≤ now) :
    Respects threshold cooldown (log ++ [(now,mark)]) := by
  intro earlier time later split many entry mem starts
  rcases eq_nil_or_concat' later with rfl | ⟨rest,_,rfl⟩
  · cases mem
  · rw [← cons_append,← append_assoc] at split
    obtain ⟨rfl,same⟩ := append_inj' split rfl
    cases same
    rcases mem_append.mp mem with old | new
    · exact respects earlier time rest rfl many entry old starts
    · rw [mem_singleton.mp new] at starts ⊢
      exact late starts time ⟨earlier,rest,rfl,many⟩

theorem not_failure_trip (other : mark ≠ .failure) (trips : Trip threshold (log ++ [(now,mark)]) time) : Trip threshold log time := by
  rcases trip_snoc trips with old | ⟨same,_⟩
  · exact old
  · exact absurd same other

section
variable (sound : Sound threshold cooldown b)
include sound

theorem Sound.cooled_down (shut : b.opened = none) : ∀ time, Trip threshold b.log time → time + cooldown ≤ b.now := by
  intro time trips
  rcases sound.cooled time trips with ended | ⟨_,opened,_⟩
  · exact ended
  · cases shut.symm.trans opened

theorem Sound.untimed (busy : b.busy = true) : b.timeouts = [] := by
  by_contra live
  rw [(sound.timed live).2] at busy
  cases busy

theorem Sound.unarmed (untimed : b.timed = false) : b.timeouts = [] := by
  by_contra live
  rw [(sound.timed live).1] at untimed
  cases untimed

end

theorem Sound.arm (within : cooldown ≤ longest) (sound : Sound threshold cooldown b) (opened : b.opened = some probe) (untimed : b.timed = false) :
    Sound threshold cooldown {b with
      timed := true, timeouts := b.timeouts ++ [(true,b.now + delay longest (max 0 (probe.getD b.now - b.now)))]} := by
  have none := sound.unarmed untimed
  have idle : b.busy = false := by
    rw [Bool.eq_false_iff]
    intro busy
    rw [sound.shut busy] at opened
    cases opened
  refine ⟨by simp [none],fun _ => ⟨rfl,idle⟩,sound.shut,?_,sound.cooled,sound.respects,sound.counted⟩
  intro other held
  rw [show b.opened = some other from held] at opened
  cases opened
  obtain ⟨time,rfl,soon,_⟩ := sound.armed probe held
  refine ⟨time,rfl,soon,?_⟩
  intro _ mem
  simp only [none,nil_append,mem_singleton,Prod.mk.injEq,true_and,Option.getD_some] at mem
  rw [mem,delay]
  split <;> omega

theorem Sound.fire (sound : Sound threshold cooldown b) (live : b.timeouts = before ++ (probe,due) :: after) (ripe : due ≤ b.now) :
    Sound threshold cooldown {b with timed := false, timeouts := before ++ after, opened := if probe then none else b.opened} := by
  have alone : before = [] ∧ after = [] := by
    have single := sound.single
    rw [live,length_append,length_cons] at single
    constructor <;> exact eq_nil_of_length_eq_zero (by omega)
  obtain ⟨rfl,rfl⟩ := alone
  refine ⟨by simp,by simp,?_,?_,?_,sound.respects,sound.counted⟩
  · intro busy
    rw [sound.untimed busy] at live
    cases live
  · intro other held
    cases probe with
    | true => cases held
    | false =>
      obtain ⟨time,rfl,soon,_⟩ := sound.armed other held
      exact ⟨time,rfl,soon,by simp⟩
  · intro time trips
    rcases sound.cooled time trips with ended | ⟨next,opened,waits⟩
    · exact .inl ended
    · cases probe with
      | false => exact .inr ⟨next,opened,waits⟩
      | true =>
        obtain ⟨_,same,_,later⟩ := sound.armed _ opened
        cases same
        have bound := later due (by simp [live])
        exact .inl (by dsimp only; omega)

theorem act_sound (within : cooldown ≤ longest) (sound : Sound threshold cooldown b) (act : Act threshold cooldown longest b b') :
    Sound threshold cooldown b' := by
  cases act with
  | wait =>
    refine ⟨sound.single,sound.timed,sound.shut,?_,?_,sound.respects,sound.counted⟩
    · intro probe opened
      obtain ⟨time,rfl,_,later⟩ := sound.armed probe opened
      exact ⟨time,rfl,by dsimp only; omega,later⟩
    · intro time trips
      rcases sound.cooled time trips with _ | waits
      · exact .inl (by dsimp only; omega)
      · exact .inr waits
  | start shut _ untimed =>
    have none := sound.unarmed untimed
    refine ⟨sound.single,fun live => absurd none live,fun _ => shut,sound.armed,?_,?_,?_⟩
    · intro time trips
      exact sound.cooled time (not_failure_trip (by simp) trips)
    · exact respects_snoc sound.respects (fun _ => sound.cooled_down shut)
    · rw [streak_snoc]
      exact sound.counted
  | arm _ opened untimed => exact sound.arm within opened untimed
  | fire _ _ _ _ live ripe => exact sound.fire live ripe
  | succeed current flying =>
    have shut := sound.shut flying
    have closed : (if current then none else b.opened) = none := by rw [shut]; split <;> rfl
    refine ⟨sound.single,fun live => absurd (sound.untimed flying) live,fun _ => closed,?_,?_,?_,?_⟩
    · intro probe opened
      rw [show (if current then none else b.opened) = some probe from opened] at closed
      cases closed
    · intro time trips
      exact .inl (sound.cooled_down shut time (not_failure_trip (by simp) trips))
    · exact respects_snoc sound.respects (by simp)
    · rw [streak_snoc]
      rfl
  | retry _ flying =>
    have shut := sound.shut flying
    have none := sound.untimed flying
    refine ⟨by simp [none],fun _ => ⟨rfl,rfl⟩,by simp,?_,sound.cooled,sound.respects,sound.counted⟩
    intro probe opened
    rw [show b.opened = some probe from opened] at shut
    cases shut
  | fail flying =>
    have shut := sound.shut flying
    refine ⟨sound.single,fun live => absurd (sound.untimed flying) live,fun _ => shut,sound.armed,?_,?_,?_⟩
    · intro time trips
      rcases trip_snoc trips with old | ⟨_,_,many⟩
      · exact .inl (sound.cooled_down shut time old)
      · simp only [streak_snoc,count,← sound.counted] at many
        omega
    · exact respects_snoc sound.respects (by simp)
    · rw [streak_snoc,sound.counted]
      rfl
  | trip flying =>
    have shut := sound.shut flying
    have none := sound.untimed flying
    refine ⟨sound.single,fun live => absurd none live,by simp,?_,?_,?_,?_⟩
    · rintro probe ⟨⟩
      exact ⟨_,rfl,by simp,by simp [none]⟩
    · intro time trips
      rcases trip_snoc trips with old | ⟨_,rfl,_⟩
      · exact .inl (sound.cooled_down shut time old)
      · exact .inr ⟨_,rfl,Int.le_refl _⟩
    · exact respects_snoc sound.respects (by simp)
    · rw [streak_snoc,sound.counted]
      rfl

theorem acts_sound (within : cooldown ≤ longest) (sound : Sound threshold cooldown b) (acts : Acts threshold cooldown longest b b') :
    Sound threshold cooldown b' := by
  induction acts with
  | refl => exact sound
  | tail _ act ih => exact act_sound within ih act

end Breaker
