import Mathlib.Data.List.Nodup
import StellarPriceOracle.OracleContract

namespace StellarPriceOracle.BatchReplay
open Guarded Storage Submission OracleContract
open KeyedStore (empty get_set_ne)
open Or (inl inr)

def applied : Call → Option (Nat × Nat)
  | .applyBatchEntry batchNonce _ proof => some (batchNonce,proof.leafIndex)
  | _ => none

def applications (ts : List (Runs.Transition Storage (Env × Call))) : List (Nat × Nat) :=
  ts.filterMap (fun t => applied t.input.2)

@[simp] def Retained (s : Storage) (k : Nat) : Prop := getBatchNonce s - retainedBatchRoots ≤ k ∧ k < getBatchNonce s

-- Against the list of all pairs ever applied: below the window nothing can be applied any more.
structure Tracks (used : List (Nat × Nat)) (s : Storage) : Prop where
  watermark : getBatchPruneWatermark s = getBatchNonce s - retainedBatchRoots
  rooted : ∀ k, (getBatchRoot s k).isSome ↔ Retained s k
  sized : ∀ k, (getBatchSize s k).isSome ↔ Retained s k
  tracked : ∀ k, (s.get (.batchAppliedLeaves k)).isSome → Retained s k
  committed : ∀ pair ∈ used, pair.1 < getBatchNonce s
  recorded : ∀ pair ∈ used, Retained s pair.1 → pair.2 ∈ getBatchAppliedLeaves s pair.1
  once : used.Nodup

theorem empty_tracks : Tracks [] empty := by
  refine ⟨?_,?_,?_,?_,?_,?_,List.nodup_nil⟩ <;>
    simp [getBatchPruneWatermark,getBatchNonce,getBatchRoot,getBatchSize]

theorem tracks_congr (same : ∀ k : DataKey, (k = .batchNonce ∨ k = .batchPruneWatermark ∨ ∃ m, k.BatchSlot m) →
    next.get k = s.get k) (valid : Tracks used s) : Tracks used next := by
  have nonce : getBatchNonce next = getBatchNonce s := by
    simp [getBatchNonce,same .batchNonce (inl rfl)]
  have slot : ∀ m k, k.BatchSlot m → next.get k = s.get k := fun m k owned => same k (inr (inr ⟨m,owned⟩))
  have root : ∀ k, getBatchRoot next k = getBatchRoot s k := fun k => slot k _ (inl rfl)
  have size : ∀ k, getBatchSize next k = getBatchSize s k := fun k => slot k _ (inr (inl rfl))
  have leaves : ∀ k, next.get (.batchAppliedLeaves k) = s.get (.batchAppliedLeaves k) :=
    fun k => slot k _ (inr (inr rfl))
  refine ⟨?_,?_,?_,?_,?_,?_,valid.once⟩
  · rw [nonce,← valid.watermark]
    simp [getBatchPruneWatermark,same .batchPruneWatermark (inr (inl rfl))]
  · simpa only [root,Retained,nonce] using valid.rooted
  · simpa only [size,Retained,nonce] using valid.sized
  · simpa only [leaves,Retained,nonce] using valid.tracked
  · simpa only [nonce] using valid.committed
  · simpa only [getBatchAppliedLeaves,leaves,Retained,nonce] using valid.recorded

-- What a commit writes under its nonce, and what it prunes.
structure Committed (s next : Storage) (root : Bytes) (batchSize : Nat) : Prop where
  nonce : getBatchNonce next = getBatchNonce s + 1
  watermark : getBatchPruneWatermark next = getBatchNonce s + 1 - retainedBatchRoots
  rooted : getBatchRoot next (getBatchNonce s) = some root
  sized : getBatchSize next (getBatchNonce s) = some batchSize
  others : ∀ m k, k.BatchSlot m → m ≠ getBatchNonce s → next.get k =
    if getBatchNonce s - retainedBatchRoots ≤ m ∧ m < getBatchNonce s + 1 - retainedBatchRoots then none else s.get k

theorem submitBatch_committed (ran : submitBatch env s source nonce root batchSize = .ok r)
    (valid : Tracks used s) : Committed s r.2 root batchSize := by
  obtain ⟨current,_,rfl⟩ := submitBatch_parts ran
  subst current
  have behind : getBatchPruneWatermark (s.set (.batchRoot (getBatchNonce s)) root) =
      getBatchNonce s - retainedBatchRoots := by
    rw [← valid.watermark]
    simp [getBatchPruneWatermark]
  have above : ¬ (getBatchNonce s - retainedBatchRoots ≤ getBatchNonce s ∧
      getBatchNonce s < getBatchNonce s + 1 - retainedBatchRoots) := by
    unfold retainedBatchRoots
    omega
  refine ⟨by simp [getBatchNonce],?_,?_,by simp [getBatchSize],?_⟩
  · rw [← pruneBatchRoots_watermark behind]
    simp [getBatchPruneWatermark]
  · have got := pruneBatchRoots_slot behind (inl rfl : (DataKey.batchRoot (getBatchNonce s)).BatchSlot _)
    rw [if_neg above] at got
    simpa [getBatchRoot] using got
  · intro m k slot other
    have uncounted : k ≠ .batchNonce := by
      rcases slot with rfl | rfl | rfl <;> simp
    have unsized : k ≠ .batchSize (getBatchNonce s) := by
      rcases slot with rfl | rfl | rfl <;> simp [other]
    have unrooted : k ≠ .batchRoot (getBatchNonce s) := by
      rcases slot with rfl | rfl | rfl <;> simp [other]
    rw [get_set_ne uncounted,get_set_ne unsized,pruneBatchRoots_slot behind slot,
      get_set_ne unrooted]

theorem window_moves (got : Storage → Nat → Bool) (next_nonce : getBatchNonce next = getBatchNonce s + 1)
    (newest : got next (getBatchNonce s) = true)
    (others : ∀ m, m ≠ getBatchNonce s → got next m = if getBatchNonce s - retainedBatchRoots ≤ m ∧
      m < getBatchNonce s + 1 - retainedBatchRoots then false else got s m)
    (valid : ∀ k, got s k = true ↔ Retained s k) (k : Nat) : got next k = true ↔ Retained next k := by
  have before := valid k
  unfold Retained retainedBatchRoots at *
  rw [next_nonce]
  by_cases here : k = getBatchNonce s
  · subst here
    simp only [newest,true_iff]
    omega
  · rw [others k here]
    split
    · simp only [Bool.false_eq_true,false_iff]
      omega
    · rw [before]
      omega

theorem Committed.tracks (commit : Committed s next root batchSize) (valid : Tracks used s) : Tracks used next := by
  have window := commit.others
  refine ⟨by rw [commit.watermark,commit.nonce],?_,?_,?_,?_,?_,valid.once⟩
  · refine window_moves (fun s k => (getBatchRoot s k).isSome) commit.nonce (by simp [commit.rooted]) ?_ valid.rooted
    intro m other
    simp only [getBatchRoot,window m _ (inl rfl) other]
    split <;> rfl
  · refine window_moves (fun s k => (getBatchSize s k).isSome) commit.nonce (by simp [commit.sized]) ?_ valid.sized
    intro m other
    simp only [getBatchSize,window m _ (inr (inl rfl)) other]
    split <;> rfl
  · intro k mem
    have before := valid.tracked k
    unfold Retained retainedBatchRoots at *
    rw [commit.nonce]
    by_cases here : k = getBatchNonce s
    · omega
    · rw [window k _ (inr (inr rfl)) here] at mem
      split at mem
      · cases mem
      · have old := before mem
        omega
  · intro pair member
    have old := valid.committed pair member
    rw [commit.nonce]
    omega
  · intro pair member retained
    have old := valid.committed pair member
    have here : pair.1 ≠ getBatchNonce s := by omega
    unfold Retained at retained
    rw [commit.nonce] at retained
    have kept : ¬ (getBatchNonce s - retainedBatchRoots ≤ pair.1 ∧ pair.1 < getBatchNonce s + 1 - retainedBatchRoots) := by
      omega
    rw [getBatchAppliedLeaves,window pair.1 _ (inr (inr rfl)) here,if_neg kept]
    refine valid.recorded pair member ⟨?_,old⟩
    unfold retainedBatchRoots at *
    omega

theorem mark_tracks (valid : Tracks used s) (rooted : getBatchRoot s nonce = some root)
    (unused : leaf ∉ getBatchAppliedLeaves s nonce) : Tracks (used ++ [(nonce,leaf)])
      (s.set (.batchAppliedLeaves nonce) (getBatchAppliedLeaves s nonce ++ [leaf])) := by
  have retained : Retained s nonce := (valid.rooted nonce).mp (by simp [rooted])
  have same : getBatchNonce (s.set (.batchAppliedLeaves nonce) (getBatchAppliedLeaves s nonce ++ [leaf])) =
      getBatchNonce s := by simp [getBatchNonce]
  refine ⟨?_,?_,?_,?_,?_,?_,?_⟩
  · rw [same,← valid.watermark]
    simp [getBatchPruneWatermark]
  · simpa [getBatchRoot,same] using valid.rooted
  · simpa [getBatchSize,same] using valid.sized
  · intro k mem
    rw [Retained,same]
    rcases eq_or_ne k nonce with rfl | here
    · exact retained
    · exact valid.tracked k (by simpa [here] using mem)
  · intro pair member
    rw [same]
    rcases Runs.mem_snoc.mp member with old | new
    · exact valid.committed pair old
    · rw [new]
      exact retained.2
  · intro pair member inside
    rw [Retained,same] at inside
    rcases Runs.mem_snoc.mp member with old | new
    · have recorded := valid.recorded pair old inside
      by_cases here : pair.1 = nonce
      · rw [here] at recorded ⊢
        simp [getBatchAppliedLeaves] at recorded ⊢
        exact inl recorded
      · simpa [getBatchAppliedLeaves,here] using recorded
    · rw [new]
      simp [getBatchAppliedLeaves]
  · have fresh : (nonce,leaf) ∉ used := fun old => unused (valid.recorded _ old retained)
    simpa using valid.once.concat fresh

theorem step_tracks (ran : step host verify s (env,call) = .ok next) (valid : Tracks used s) :
    Tracks (used ++ (applied call).toList) next := by
  cases call with
  | submitBatch =>
    obtain ⟨_,submitted,⟨⟩⟩ := bind_ok.mp ran
    simpa [applied] using (submitBatch_committed submitted valid).tracks valid
  | applyBatchEntry =>
    obtain ⟨_,submitted,⟨⟩⟩ := bind_ok.mp ran
    obtain ⟨⟨root,_,rooted,_⟩,_,_,unused,rfl⟩ := applyBatchEntry_parts submitted
    refine tracks_congr ?_ (mark_tracks valid rooted unused)
    rintro k (rfl | rfl | ⟨m,rfl | rfl | rfl⟩) <;> exact writePrice_get (by simp) (by simp) (by simp) (by simp)
  | executeProposal =>
    change Tracks (used ++ []) next
    rw [List.append_nil]
    refine tracks_congr ?_ valid
    intro k batch
    refine step_frame ran ?_
    rintro ⟨proposal,_,rfl | touched⟩
    · simp [DataKey.BatchSlot] at batch
    · rcases batch with rfl | rfl | ⟨m,rfl | rfl | rfl⟩ <;>
        cases action : proposal.action <;> simp [action,MultiSigActions.Touches] at touched
  | _ =>
    change Tracks (used ++ []) next
    rw [List.append_nil]
    refine tracks_congr ?_ valid
    rintro k (rfl | rfl | ⟨m,rfl | rfl | rfl⟩) <;> exact step_frame ran (by simp [OracleContract.Touches])

theorem runs_track (path : Runs.Run (step host verify) empty ts s) : Tracks (applications ts) s := by
  induction path with
  | nil => exact empty_tracks
  | @snoc ts s input next prior ran ih =>
    obtain ⟨env,call⟩ := input
    have extended : applications (ts ++ [⟨s,(env,call),next⟩]) = applications ts ++ (applied call).toList := by
      cases got : applied call <;> simp [applications,got]
    rw [extended]
    exact step_tracks ran ih

-- Replay safety of the batch path, whatever the proof check answers.
theorem batch_replay_safe (path : Runs.Run (step host verify) empty ts s) :
    (applications ts).Nodup ∧ ∀ r ∈ Runs.states empty ts, ∀ k,
      ((getBatchRoot r k).isSome ↔ getBatchNonce r - 16 ≤ k ∧ k < getBatchNonce r) ∧
      ((getBatchSize r k).isSome ↔ getBatchNonce r - 16 ≤ k ∧ k < getBatchNonce r) ∧
      ((r.get (.batchAppliedLeaves k)).isSome → getBatchNonce r - 16 ≤ k ∧ k < getBatchNonce r) := by
  refine ⟨(runs_track path).once,?_⟩
  intro r visited k
  obtain ⟨_,reached⟩ := path.visited_run visited
  have valid := runs_track reached
  exact ⟨valid.rooted k,valid.sized k,valid.tracked k⟩

def Sample.turnover : List Call :=
  [.initializeContract Sample.admin,.addOracleSource Sample.admin Merkle.Sample.source [0x42],
    .submitBatch Merkle.Sample.source 0 Merkle.Sample.root 3,
    .applyBatchEntry 0 (Merkle.Sample.entry 3) ⟨2,[Merkle.Sample.node12]⟩] ++
  (List.range 16).map (fun n => .submitBatch Merkle.Sample.source (n+1) Merkle.Sample.root 3)

theorem turnover_safe : ∃ ts s, Runs.Run (step Sample.host (merkleVerifier Sample.host)) empty ts s ∧
    applications ts = [(0,2)] ∧ getBatchNonce s = 17 ∧ getBatchRoot s 0 = none ∧ (applications ts).Nodup ∧
    ((getBatchRoot s 1).isSome ↔ getBatchNonce s - 16 ≤ 1 ∧ 1 < getBatchNonce s) := by
  have replayed : (Sample.run Sample.turnover).map (fun result =>
      (applications result.1,getBatchNonce result.2,getBatchRoot result.2 0)) = .ok ([(0,2)],17,none) := by decide +kernel
  obtain ⟨ts,last,path,pairs,nonce,gone⟩ := Runs.replay_triple replayed
  obtain ⟨once,window⟩ := batch_replay_safe path
  exact ⟨ts,last,path,pairs,nonce,gone,once,(window last path.last_visited 1).1⟩

end StellarPriceOracle.BatchReplay
