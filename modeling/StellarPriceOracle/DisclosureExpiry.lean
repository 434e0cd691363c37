import StellarPriceOracle.CatalogRecusal

-- How long a declaration recuses, whenever the register is swept.
namespace StellarPriceOracle.DisclosureExpiry
open Coi Guarded Runs
open CatalogGovernance (Instant RecusalRequest epoch)
open InsertionMap
open List
open Except (ok)

inductive Call where
  | declare (input : DeclareInput)
  | withdraw (id actor : String)
  | list (actor : Option String) (status : Option CoiDisclosureStatus)
  | sweep
  | attest (actor : String) (statement : Option String)
  | recusalReasons (actor : String) (request : RecusalRequest)

-- A call that throws has changed nothing.
def settle (s : CoiRegister) : Result (α × CoiRegister) → CoiRegister
  | .ok (_,changed) => changed
  | .error _ => s

def next (host : Host) (s : CoiRegister) (event : Instant × Call) : CoiRegister :=
  match event.2 with
  | .declare input => settle s (declare host s event.1 input)
  | .withdraw id actor => settle s (withdraw host s event.1 id actor)
  | .list actor status => (list host s event.1 actor status).2
  | .sweep => (sweep s event.1).2
  | .attest actor statement => settle s (attest host s event.1 actor statement)
  | .recusalReasons actor request => (recusalReasons host s event.1 actor request).2

abbrev Step := Transition CoiRegister (Instant × Call)

-- No declaration is withdrawn that has run out and is still marked active.
def timely (host : Host) (t : Step) : Bool :=
  match t.input.2 with
  | .withdraw id actor => !(withdraw host t.before t.input.1 id actor).toBool ||
      (t.before.disclosures.get id).all (fun d => !lapsed t.input.1 d)
  | _ => true

def WithdrawnBefore (host : Host) (ts : List Step) (id : String) (expiry : Instant) : Prop :=
  ∃ t ∈ ts, ∃ actor result, t.input.2 = .withdraw id actor ∧ withdraw host t.before t.input.1 id actor = .ok result ∧ (t.input.1 : Int) < expiry

def Kept (s : CoiRegister) (id : String) (d : CoiDisclosure) : Prop :=
  d.status ≠ .withdrawn ∨ ∃ old, s.disclosures.get id = some old ∧ old.status = .withdrawn ∧ old.expiresAt = d.expiresAt

variable {id : String}

theorem Kept.same (has : s.disclosures.get id = some d) : Kept s id d := by
  by_cases gone : d.status = .withdrawn
  · exact .inr ⟨d,has,gone,rfl⟩
  · exact .inl gone

theorem sweep_kept (has : (sweep s now).2.disclosures.get id = some d) : Kept s id d := by
  simp only [sweep,get_map,Option.map_eq_some_iff] at has
  obtain ⟨_,found,rfl⟩ := has
  unfold expire
  split
  · exact .inl (by simp)
  · exact .same found

theorem next_kept (has : (next host s event).disclosures.get id = some d) :
    Kept s id d ∨ ∃ actor result, event.2 = .withdraw id actor ∧ withdraw host s event.1 id actor = .ok result ∧
      ∃ old, s.disclosures.get id = some old ∧ old.status = .active ∧ old.expiresAt = d.expiresAt := by
  obtain ⟨now,call⟩ := event
  cases call with
  | list | sweep | recusalReasons => exact .inl (sweep_kept has)
  | declare input =>
    cases done : declare host s now input with
    | error => exact .inl (.same (by simpa [next,done,settle] using has))
    | ok =>
      simp only [next,done,settle] at has
      simp only [declare,bind_ok,ok.injEq] at done
      obtain ⟨_,_,_,_,_,_,_,_,_,_,_,_,_,_,_,_,_,_,_,_,_,_,rfl⟩ := done
      rcases get_set_some.mp has with ⟨_,rfl⟩ | ⟨_,old⟩
      · exact .inl (.inl (by simp))
      · exact .inl (.same old)
  | withdraw other actor =>
    cases done : withdraw host s now other actor with
    | error => exact .inl (.same (by simpa [next,done,settle] using has))
    | ok =>
      have whole := done
      simp only [next,done,settle] at has
      simp only [withdraw,bind_ok,someOr_ok,require_ok,ok.injEq] at done
      obtain ⟨old,found,_,_,_,_,_,active,rfl⟩ := done
      rcases get_set_some.mp has with ⟨rfl,rfl⟩ | ⟨_,kept⟩
      · exact .inr ⟨actor,_,rfl,whole,old,found,active,rfl⟩
      · exact .inl (.same kept)
  | attest actor statement =>
    refine .inl (.same ?_)
    cases done : attest host s now actor statement with
    | error => simpa [next,done,settle] using has
    | ok =>
      simp only [next,done,settle] at has
      simp only [attest,bind_ok,ok.injEq] at done
      obtain ⟨_,_,_,_,_,_,rfl⟩ := done
      exact has

theorem withdrawn_early (path : Run (total (next host)) (create validity) ts s) (good : ∀ t ∈ ts, timely host t = true)
    (has : s.disclosures.get id = some d) (gone : d.status = .withdrawn) : WithdrawnBefore host ts id d.expiresAt := by
  induction path generalizing d with
  | nil => cases has
  | @snoc ts s event after prior ran ih =>
    cases ran
    have earlier {d : CoiDisclosure} (has : s.disclosures.get id = some d) (gone : d.status = .withdrawn) :
        WithdrawnBefore host (ts ++ [⟨s,event,next host s event⟩]) id d.expiresAt := by
      obtain ⟨t,mem,rest⟩ := ih (fun t mem => good t (mem_append_left _ mem)) has gone
      exact ⟨t,mem_append_left _ mem,rest⟩
    rcases next_kept has with (standing | ⟨old,found,status,same⟩) | ⟨actor,result,called,done,old,found,active,same⟩
    · exact absurd gone standing
    · exact same ▸ earlier found status
    · refine ⟨_,mem_concat_self,actor,result,called,done,?_⟩
      have now := good _ mem_concat_self
      simp only [timely,called,done,found] at now
      simpa [Except.toBool,lapsed,active,same] using now

theorem expired_keeps_recusing (path : Run (total (next host)) (create validity) ts s) (good : ∀ t ∈ ts, timely host t = true)
    (has : s.disclosures.get id = some d) (reached : ¬ WithdrawnBefore host ts id d.expiresAt) (covered : covers host request d = true)
    (now : Instant) : (recusalReasons host s now d.actor request).1 ≠ [] := by
  intro none
  have standing : d.status ≠ .withdrawn := fun gone => reached (withdrawn_early path good has gone)
  rw [recusalReasons_none.mp none d ⟨⟨id,has⟩,rfl,standing⟩] at covered
  cases covered

namespace Sample
open CatalogRecusal.Sample (coi)

def yearLater : Instant := ⟨31536000000,by decide⟩

def declares : Instant × Call := (epoch,.declare ⟨"bob","financial","reflector","source",none,none,true⟩)

def withdraws : Instant × Call := (yearLater,.withdraw "coi_1" "bob")

def request : RecusalRequest := ⟨[],["reflector"]⟩

def run (calls : List (Instant × Call)) := replay (total (next coi)) (create none) calls

def shows (s : CoiRegister) := (s.disclosures.get "coi_1").map (fun d => (d.actor,d.expiresAt,covers coi request d))

theorem sampled {f : List Step × CoiRegister → α} (seen : (run (declares :: later)).map (fun r => (f r,shows r.2)) = .ok (x,some ("bob",yearLater,true)))
    (late : ∀ event ∈ later, event.1 = yearLater) : ∃ ts s d, Run (total (next coi)) (create none) ts s ∧ f (ts,s) = x ∧
      s.disclosures.get "coi_1" = some d ∧ d.actor = "bob" ∧ ¬ WithdrawnBefore coi ts "coi_1" d.expiresAt ∧ covers coi request d = true := by
  obtain ⟨ts,s,path,inputs,shown⟩ := replay_steps seen
  obtain ⟨value,held⟩ := Prod.mk.inj shown
  obtain ⟨d,has,fields⟩ := Option.map_eq_some_iff.mp held
  simp only [Prod.mk.injEq] at fields
  refine ⟨ts,s,d,path,value,has,fields.1,?_,fields.2.2⟩
  rintro ⟨t,mem,_,_,called,_,early⟩
  have among : t.input ∈ declares :: later := inputs ▸ mem_map_of_mem mem
  rcases mem_cons.mp among with first | rest
  · rw [first] at called
    cases called
  · rw [late _ rest,fields.2.1] at early
    exact Int.lt_irrefl _ early

-- Swept in time, the declaration can no longer be withdrawn.
theorem swept_keeps_recusing : ∃ ts s, Run (total (next coi)) (create none) ts s ∧ (recusalReasons coi s yearLater "bob" request).1 ≠ [] := by
  have seen : (run [declares,(yearLater,.sweep),withdraws]).map (fun r => (r.1.all (timely coi),shows r.2)) = .ok (true,some ("bob",yearLater,true)) := by
    decide +kernel
  obtain ⟨ts,s,d,path,good,has,actor,reached,covered⟩ := sampled seen (by simp [withdraws])
  exact ⟨ts,s,path,actor ▸ expired_keeps_recusing path (all_eq_true.mp good) has reached covered yearLater⟩

theorem unswept_withdrawn : ∃ ts s d, Run (total (next coi)) (create none) ts s ∧ s.disclosures.get "coi_1" = some d ∧
    ¬ WithdrawnBefore coi ts "coi_1" d.expiresAt ∧ covers coi request d = true ∧ (recusalReasons coi s yearLater d.actor request).1 = [] := by
  have seen : (run [declares,withdraws]).map (fun r => ((recusalReasons coi r.2 yearLater "bob" request).1,shows r.2)) =
      .ok ([],some ("bob",yearLater,true)) := by decide +kernel
  obtain ⟨ts,s,d,path,free,has,actor,reached,covered⟩ := sampled seen (by simp [withdraws])
  exact ⟨ts,s,d,path,has,reached,covered,actor ▸ free⟩

end Sample

end StellarPriceOracle.DisclosureExpiry
