import StellarPriceOracle.OracleContract
import StellarPriceOracle.Library.TokenSupply
import StellarPriceOracle.Library.Reserve

namespace StellarPriceOracle.StakeSolvency
open Guarded Storage Submission OracleContract Reserve
open TokenSupply (moved)
open KeyedStore (empty)

-- The SEP-41 tokens beside the contract: a transfer moves exactly the amount or traps.
structure Ledger (σ : Type) where
  balance : σ → (token account : Address) → Int
  transfer : σ → (token sender receiver : Address) → Int → Option σ
  nonneg : ∀ funds token account, 0 ≤ balance funds token account
  exact : transfer funds token sender receiver amount = some next → ∀ t a,
    balance next t a = if t = token then moved (balance funds t) sender receiver amount a else balance funds t a

structure World (σ : Type) where
  storage : Storage
  funds : σ

inductive Event where
  | call (env : Env) (call : Call)
  | transfer (token sender receiver : Address) (amount : Int)

structure Payment where
  (token sender receiver : Address)
  amount : Int

def payment (contract : Address) (s : Storage) : Call → Option Payment
  | .stake source amount token => some ⟨token,source,contract,amount⟩
  | .slash source amount => do
    let token ← getStakeToken s source
    let treasury ← getStakeTreasury s
    some ⟨token,contract,treasury,slashedAmount s source amount⟩
  | .withdrawFees _ receiver => do
    let feeToken ← getFeeToken s
    if 0 < getFeeBalance s then some ⟨feeToken,contract,receiver,getFeeBalance s⟩ else none
  | _ => none

section
variable {σ : Type} (host : Host) (verify : Verifier) (ledger : Ledger σ) (contract : Address)

def settle (funds : σ) : Option Payment → Outcome σ
  | some p => someOr (ledger.transfer funds p.token p.sender p.receiver p.amount) .trap
  | none => .ok funds

def view (funds : σ) (env : Env) : Env :=
  {env with contract := contract, transfer := fun token sender receiver amount =>
    (ledger.transfer funds token sender receiver amount).isSome}

def step (w : World σ) : Event → Outcome (World σ)
  | .call env call => do
    let storage ← OracleContract.step host verify w.storage (view ledger contract w.funds env,call)
    let funds ← settle ledger w.funds (payment contract w.storage call)
    .ok ⟨storage,funds⟩
  | .transfer token sender receiver amount => do
    let funds ← settle ledger w.funds (some ⟨token,sender,receiver,amount⟩)
    .ok {w with funds := funds}

-- Stakes and transfers come from other parties, and the fee account is left alone.
def Allowed : Event → Prop
  | .call _ (.stake source _ _) => source ≠ contract
  | .call _ (.withdrawFees _ _) => False
  | .call _ _ => True
  | .transfer _ sender _ amount => sender ≠ contract ∧ 0 ≤ amount

instance (event : Event) : Decidable (Allowed contract event) := by
  cases event with
  | call env call => cases call <;> unfold Allowed <;> infer_instance
  | transfer token sender receiver amount => unfold Allowed; infer_instance

end

abbrev Trace (σ : Type) := List (Runs.Transition (World σ) Event)

@[simp] def staked (a : Address) : Event → Int
  | .call _ (.stake source amount _) => if source = a then amount else 0
  | _ => 0

@[simp] def slashed (a : Address) (s : Storage) : Event → Int
  | .call _ (.slash source amount) => if source = a then slashedAmount s source amount else 0
  | _ => 0

-- The stake entries of the storage, read as a book of pledges.
structure Pledged (s : Storage) (b : Book Address Address) : Prop where
  currency : ∀ a, getStakeToken s a = b.currency a
  pledge : ∀ a, getStake s a = b.pledge a

theorem Pledged.congr (pledged : Pledged s b) (tokens : ∀ a, next.get (.stakeToken a) = s.get (.stakeToken a))
    (stakes : ∀ a, next.get (.stakeInfo a) = s.get (.stakeInfo a)) : Pledged next b := by
  refine ⟨?_,?_⟩
  · intro a
    rw [getStakeToken,tokens a]
    exact pledged.currency a
  · intro a
    rw [getStake,stakes a]
    exact pledged.pledge a

theorem Pledged.deposit (pledged : Pledged s b) (pos : 0 ≤ amount) :
    Pledged (setStake (setStakeToken s source token) source (getStake s source + amount))
      (b.deposit source token amount pos) := by
  refine ⟨?_,?_⟩
  · intro a
    rcases eq_or_ne a source with rfl | here
    · simp [getStakeToken,setStake,setStakeToken,Book.deposit]
    · simpa [getStakeToken,setStake,setStakeToken,Book.deposit,here] using pledged.currency a
  · intro a
    rcases eq_or_ne a source with rfl | here
    · simpa [getStake,setStake,Book.deposit] using pledged.pledge a
    · simpa [getStake,setStake,setStakeToken,Book.deposit,here] using pledged.pledge a

theorem Pledged.withdraw (pledged : Pledged s b) (funded : amount ≤ b.pledge source) (known : (b.currency source).isSome = true) :
    Pledged (setSlashCount (setStake s source (getStake s source - amount)) source count)
      (b.withdraw source amount funded known) := by
  refine ⟨?_,?_⟩
  · intro a
    simpa [getStakeToken,setStake,setSlashCount,Book.withdraw] using pledged.currency a
  · intro a
    rcases eq_or_ne a source with rfl | here
    · simpa [getStake,setStake,setSlashCount,Book.withdraw] using pledged.pledge a
    · simpa [getStake,setStake,setSlashCount,Book.withdraw,here] using pledged.pledge a

-- What the book holds covers what is owed, and pledges move by what was staked and slashed.
def Follows (ledger : Ledger σ) (contract : Address) (b : Book Address Address) (s : Storage) (event : Event)
    (next : World σ) : Prop :=
  ∃ c : Book Address Address, Pledged next.storage c ∧ (∀ t, c.owed t ≤ ledger.balance next.funds t contract) ∧
    ∀ a, c.pledge a = b.pledge a + staked a event - slashed a s event

theorem settle_some (settled : settle ledger funds (some p) = .ok next) : ledger.balance next t a =
      if t = p.token then moved (ledger.balance funds t) p.sender p.receiver p.amount a else ledger.balance funds t a := by
  simp only [settle,someOr_ok] at settled
  exact ledger.exact settled t a

theorem settle_keeps (settled : settle ledger funds (some p) = .ok next) (pos : 0 ≤ p.amount)
    (other : p.sender ≠ contract) : ledger.balance funds t contract ≤ ledger.balance next t contract := by
  rw [settle_some settled]
  split
  · have mine : contract ≠ p.sender := fun same => other same.symm
    simp only [moved,mine,if_false]
    split <;> omega
  · exact Int.le_refl _

theorem slashedAmount_bounds (pos : 0 < amount) (held : 0 < getStake s source) :
    0 < slashedAmount s source amount ∧ slashedAmount s source amount ≤ getStake s source := by
  unfold slashedAmount
  split <;> omega

section
variable {ledger : Ledger σ} {w : World σ} (pledged : Pledged w.storage b) (covered : ∀ t, b.owed t ≤ ledger.balance w.funds t contract)
include pledged covered

theorem stake_follows (other : source ≠ contract) (ran : stake env w.storage source amount token = .ok storage)
    (settled : settle ledger w.funds (some ⟨token,source,contract,amount⟩) = .ok funds) :
    Follows ledger contract b w.storage (.call outer (.stake source amount token)) ⟨storage,funds⟩ := by
  obtain ⟨pos,own,rfl⟩ := stake_parts ran
  rw [pledged.currency source] at own
  have nonneg : 0 ≤ amount := Int.le_of_lt pos
  refine ⟨b.deposit source token amount nonneg,pledged.deposit nonneg,?_,?_⟩
  · intro t
    have before := covered t
    rw [b.deposit_owed own nonneg,settle_some settled]
    have mine : contract ≠ source := fun same => other same.symm
    split
    · simp only [moved,mine,if_false,if_true]
      omega
    · omega
  · intro a
    rcases eq_or_ne a source with rfl | here
    · simp [Book.deposit]
    · have there : source ≠ a := fun same => here same.symm
      simp [Book.deposit,here,there]

theorem slash_follows (ran : slash env w.storage source amount = .ok storage)
    (settled : settle ledger w.funds (payment contract w.storage (.slash source amount)) = .ok funds) :
    Follows ledger contract b w.storage (.call outer (.slash source amount)) ⟨storage,funds⟩ := by
  obtain ⟨token,treasury,_,pos,held,currency,set,rfl⟩ := slash_parts ran
  obtain ⟨_,bounded⟩ := slashedAmount_bounds pos held
  have paid : payment contract w.storage (.slash source amount) =
      some ⟨token,contract,treasury,slashedAmount w.storage source amount⟩ := by simp [payment,currency,set]
  rw [paid] at settled
  have own : b.currency source = some token := (pledged.currency source).symm.trans currency
  have funded : slashedAmount w.storage source amount ≤ b.pledge source := pledged.pledge source ▸ bounded
  have known : (b.currency source).isSome = true := by simp [own]
  refine ⟨b.withdraw source _ funded known,pledged.withdraw funded known,?_,?_⟩
  · intro t
    have before := covered t
    rw [b.withdraw_owed own funded known,settle_some settled]
    split
    · -- A treasury that is the contract itself gets back what it pays.
      simp only [moved,if_true]
      split <;> omega
    · omega
  · intro a
    rcases eq_or_ne a source with rfl | here
    · simp [Book.withdraw]
    · have there : source ≠ a := fun same => here same.symm
      simp [Book.withdraw,here,there]

theorem quiet_follows (frame : ∀ a k, k = .stakeToken a ∨ k = .stakeInfo a → storage.get k = w.storage.get k)
    (unstaked : ∀ a, staked a event = 0) (unslashed : ∀ a, slashed a w.storage event = 0) :
    Follows ledger contract b w.storage event ⟨storage,w.funds⟩ := by
  have tokens : ∀ a, storage.get (.stakeToken a) = w.storage.get (.stakeToken a) := fun a => frame a _ (Or.inl rfl)
  have stakes : ∀ a, storage.get (.stakeInfo a) = w.storage.get (.stakeInfo a) := fun a => frame a _ (Or.inr rfl)
  refine ⟨b,pledged.congr tokens stakes,covered,?_⟩
  intro a
  rw [unstaked,unslashed]
  omega

theorem call_follows {next : World σ} (allowed : Allowed contract (.call env call))
    (accepted : step host verify ledger contract w (.call env call) = .ok next) :
    Follows ledger contract b w.storage (.call env call) next := by
  simp only [step,bind_ok,Except.ok.injEq] at accepted
  obtain ⟨_,ran,_,settled,rfl⟩ := accepted
  cases call with
  | stake => exact stake_follows pledged covered allowed ran settled
  | slash => exact slash_follows pledged covered ran settled
  | withdrawFees => exact allowed.elim
  | executeProposal =>
    cases settled
    refine quiet_follows pledged covered ?_ (fun _ => rfl) (fun _ => rfl)
    intro a k entry
    apply step_frame ran
    apply execute_untouched
    · intro n
      rcases entry with rfl | rfl <;> simp
    · intro action
      rcases entry with rfl | rfl <;> cases action <;> simp [MultiSigActions.Touches]
  | _ =>
    cases settled
    refine quiet_follows pledged covered ?_ (fun _ => rfl) (fun _ => rfl)
    intro a k entry
    apply step_frame ran
    rcases entry with rfl | rfl <;> simp [Touches,DataKey.BatchSlot]

theorem step_follows {next : World σ} (allowed : Allowed contract event)
    (ran : step host verify ledger contract w event = .ok next) : Follows ledger contract b w.storage event next := by
  cases event with
  | call => exact call_follows pledged covered allowed ran
  | transfer =>
    obtain ⟨_,settled,⟨⟩⟩ := bind_ok.mp ran
    refine ⟨b,pledged,?_,?_⟩
    · intro t
      exact Int.le_trans (covered t) (settle_keeps settled allowed.2 allowed.1)
    · intro a
      simp

end

structure Solvent (ledger : Ledger σ) (contract : Address) (ts : Trace σ) (w : World σ) : Prop where
  covered : ∀ token, ∃ sources : Finset Address, (∀ a, a ∈ sources ↔ getStakeToken w.storage a = some token) ∧
    ∑ a ∈ sources, getStake w.storage a ≤ ledger.balance w.funds token contract
  nonneg : ∀ a, 0 ≤ getStake w.storage a
  accounted : ∀ a, getStake w.storage a =
    (ts.map (fun t => staked a t.input)).sum - (ts.map (fun t => slashed a t.before.storage t.input)).sum

structure Kept (ledger : Ledger σ) (contract : Address) (ts : Trace σ) (w : World σ) (b : Book Address Address) : Prop where
  pledged : Pledged w.storage b
  covered : ∀ t, b.owed t ≤ ledger.balance w.funds t contract
  accounted : ∀ a, b.pledge a =
    (ts.map (fun t => staked a t.input)).sum - (ts.map (fun t => slashed a t.before.storage t.input)).sum

theorem runs_kept {w : World σ} (path : Runs.Run (step host verify ledger contract) ⟨empty,funds⟩ ts w)
    (allowed : ∀ t ∈ ts, Allowed contract t.input) : ∃ b, Kept ledger contract ts w b := by
  induction path with
  | nil =>
    refine ⟨Book.empty,⟨fun _ => rfl,fun _ => rfl⟩,?_,fun _ => rfl⟩
    intro t
    exact ledger.nonneg funds t contract
  | @snoc ts w event next prior ran ih =>
    obtain ⟨b,kept⟩ := ih (fun t mem => allowed t (List.mem_append_left _ mem))
    have last : Allowed contract event := allowed _ List.mem_concat_self
    obtain ⟨c,pledged,covered,moves⟩ := step_follows kept.pledged kept.covered last ran
    refine ⟨c,pledged,covered,?_⟩
    intro a
    rw [moves a,kept.accounted a]
    simp only [List.map_append,List.sum_append,List.map_cons,List.map_nil,List.sum_cons,List.sum_nil]
    omega

-- The stakes are covered by what the contract holds, source by source accounted for.
theorem stakes_covered {ledger : Ledger σ} {w : World σ}
    (path : Runs.Run (step host verify ledger contract) ⟨empty,funds⟩ ts w)
    (allowed : ∀ t ∈ ts, Allowed contract t.input) : Solvent ledger contract ts w := by
  obtain ⟨b,kept⟩ := runs_kept path allowed
  refine ⟨?_,?_,?_⟩
  · intro token
    refine ⟨b.holders token,?_,?_⟩
    · intro a
      rw [kept.pledged.currency a]
      exact b.mem_holders
    · simp only [kept.pledged.pledge]
      rw [← b.owed_holders]
      exact kept.covered token
  · intro a
    rw [kept.pledged.pledge a]
    exact b.nonneg a
  · intro a
    rw [kept.pledged.pledge a]
    exact kept.accounted a

namespace Sample
open OracleContract.Sample

abbrev Funds := {held : Address → Address → Int // ∀ token account, 0 ≤ held token account}

def paid (funds : Funds) (token sender receiver : Address) (amount : Int) (t a : Address) : Int :=
  if t = token then moved (funds.1 t) sender receiver amount a else funds.1 t a

theorem paid_nonneg (funds : Funds) (pos : 0 ≤ amount) (funded : amount ≤ funds.1 token sender) (t a : Address) :
    0 ≤ paid funds token sender receiver amount t a := by
  have own := funds.2 t a
  unfold paid moved
  split
  · rename_i here
    subst here
    rcases eq_or_ne a sender with rfl | paying
    · simp only [if_true]
      split <;> omega
    · simp only [paying,if_false]
      split <;> omega
  · exact own

def ledger : Ledger Funds where
  balance funds := funds.1
  transfer funds token sender receiver amount :=
    if funded : 0 ≤ amount ∧ amount ≤ funds.1 token sender then
      some ⟨paid funds token sender receiver amount,paid_nonneg funds funded.1 funded.2⟩
    else none
  nonneg funds := funds.2
  exact := by
    intro funds token sender receiver amount next sent t a
    split at sent
    · cases sent
      rfl
    · cases sent

def source : Address := .repeated 0x31
def token : Address := .repeated 0x54
def contract : Address := .repeated 0x43
def funds : Funds := ⟨fun _ a => if a = source then 100 else 0,by intro _ a; dsimp only; split <;> decide⟩

def events : List Event :=
  [.call env (.initializeContract admin),.call env (.setStakeTreasury admin (.repeated 0x32)),
    .call env (.stake source 80 token),.call env (.slash source 30),.call env (.stake source 10 token)]

def run : Outcome (Trace Funds × World Funds) :=
  Runs.replay (step host (merkleVerifier host) ledger contract) ⟨empty,funds⟩ events
end Sample

open Sample

theorem slashed_stake_covered : ∃ ts w,
    Runs.Run (step host (merkleVerifier host) ledger contract) ⟨empty,funds⟩ ts w ∧
    Solvent ledger contract ts w ∧ getStake w.storage source = 60 ∧
    ledger.balance w.funds token contract = 60 := by
  have replayed : run.map (fun result => (decide (∀ t ∈ result.1, Allowed contract t.input),
      getStake result.2.storage source,ledger.balance result.2.funds token contract)) =
        .ok (true,60,60) := by rfl
  obtain ⟨ts,w,path,observed⟩ := Runs.replay_observed replayed
  simp only [Prod.mk.injEq] at observed
  obtain ⟨allowed,stake,balance⟩ := observed
  exact ⟨ts,w,path,stakes_covered path (of_decide_eq_true allowed),stake,balance⟩

end StellarPriceOracle.StakeSolvency
