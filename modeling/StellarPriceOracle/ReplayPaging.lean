import StellarPriceOracle.ReplayHonesty

namespace StellarPriceOracle.ReplayPaging
open WsReplay ReplayHonesty
open List
open JsArray (sortBy_perm)

section
variable {α : Type} (size : α → Nat) (config : WsConfig) (s : Server α) (scope : List String)

-- A client asks again, from the id it was given, until nothing is left out; its scope stays the same.
def pages : Nat → Nat → Option (List (BufferedMessage α))
  | 0,_ => none
  | requests + 1,last =>
    let answer := answerReplay size config s last scope none
    answer.complete.bind (fun complete =>
      if complete.truncated then (pages requests complete.lastSequenceId).map (answer.sent ++ ·) else some answer.sent)

def Ascending (messages : List (BufferedMessage α)) : Prop := messages.Pairwise (fun m n => m.sequenceId < n.sequenceId)

-- No id occurs twice past the cursor in the buffers of the scope, each taken as often as the scope names it.
def Once (last : Nat) : Prop := (s.pending scope last).Pairwise (fun m n => m.sequenceId ≠ n.sequenceId)

end

section
variable {α : Type} {size : α → Nat} {config : WsConfig} {s : Server α} {scope : List String} {last : Nat}

theorem Once.ascending (once : Once s scope last) : Ascending (bySequence (s.pending scope last)) := by
  have sorted : (bySequence (s.pending scope last)).Pairwise (fun m n => decide (m.sequenceId ≤ n.sequenceId) = true) :=
    JsArray.sortBy_sorted (fun _ _ => by simpa using Nat.le_total _ _) (fun _ _ _ => by simpa using Nat.le_trans)
  have apart : (bySequence (s.pending scope last)).Pairwise (fun m n => m.sequenceId ≠ n.sequenceId) := once.perm sortBy_perm.symm Ne.symm
  exact (sorted.and apart).imp (fun both => Nat.lt_of_le_of_ne (of_decide_eq_true both.1) both.2)

-- What is past the last message of a page is what the page left out.
theorem Once.next_page (once : Once s scope last) (whole : bySequence (s.pending scope last) = front ++ m :: rest) :
    Once s scope m.sequenceId ∧ bySequence (s.pending scope m.sequenceId) = rest := by
  have ascending := once.ascending
  have sorted : (front ++ m :: rest).Perm (s.pending scope last) := whole ▸ sortBy_perm
  have past : last < m.sequenceId := (mem_pending.mp (sorted.subset (by simp))).2
  rw [whole,Ascending,pairwise_append,pairwise_cons] at ascending
  obtain ⟨_,⟨after,tail⟩,before⟩ := ascending
  have left : s.pending scope m.sequenceId = (s.pending scope last).filter (fun n => decide (m.sequenceId < n.sequenceId)) := by
    simp only [Server.pending,candidates,filter_filter,Option.all_none,Bool.and_true]
    refine filter_congr (fun n _ => ?_)
    simp only [← Bool.decide_and,decide_eq_decide]
    omega
  have kept : (front ++ m :: rest).filter (fun n => decide (m.sequenceId < n.sequenceId)) = rest := by
    have gone : front.filter (fun n => decide (m.sequenceId < n.sequenceId)) = [] :=
      filter_eq_nil_iff.mpr (fun n old => by simpa using Nat.le_of_lt (before n old m mem_cons_self))
    rw [filter_append,gone,filter_cons_of_neg (by simp)]
    exact filter_eq_self.mpr (fun n new => by simpa using after n new)
  have later : Once s scope m.sequenceId := by
    rw [Once,left]
    exact once.filter _
  have same : (bySequence (s.pending scope m.sequenceId)).Perm rest := by
    rw [← kept]
    exact sortBy_perm.trans (left ▸ (sorted.filter _).symm)
  exact ⟨later,same.eq_of_pairwise (fun _ _ _ _ less more => absurd less (Nat.lt_asymm more)) later.ascending tail⟩

-- A page is the front of what is pending, and not empty if that is not.
theorem answer_page (size : α → Nat) (s : Server α) (scope : List String) (last : Nat) (positive : 1 ≤ config.replayMaxMessages) :
    ∃ front rest complete, bySequence (s.pending scope last) = front ++ rest ∧ (front = [] → rest = []) ∧
      answerReplay size config s last scope none = ⟨front,some complete⟩ ∧ (complete.truncated = true ↔ rest ≠ []) ∧
      complete.lastSequenceId = (front.getLast?.map BufferedMessage.sequenceId).getD last := by
  obtain ⟨rest,whole⟩ : ∃ rest, bySequence (s.pending scope last) = fillWindow size config.replayBounds 0 0 _ ++ rest := fillWindow_front ..
  have same : s.replayBuffer.sources (some scope) none = scope.map s.replayBuffer.held := by simp [ReplayBuffer.sources]
  refine ⟨_,rest,_,whole,?_,by rw [answerReplay,same]; rfl,?_,rfl⟩
  · intro empty
    rw [empty,nil_append] at whole
    cases rest with
    | nil => rfl
    | cons =>
      rw [whole,fillWindow,if_neg (Nat.not_le.mpr positive : ¬ 0 ≥ config.replayBounds.maxMessages),if_neg (by simp)] at empty
      cases empty
  · have length := congrArg List.length whole
    cases rest <;> simp [collectReplayWindow,Server.pending] at length ⊢ <;> omega

theorem Once.paged (once : Once s scope last) (positive : 1 ≤ config.replayMaxMessages) (enough : (s.pending scope last).length < n) :
    pages size config s scope n last = some (bySequence (s.pending scope last)) := by
  induction n generalizing last with
  | zero => omega
  | succ n ih =>
    obtain ⟨front,rest,complete,whole,begun,answer,truncated,next⟩ := answer_page size s scope last positive
    simp only [pages,answer,Option.bind_some]
    cases rest with
    | nil => simp [truncated,whole]
    | cons =>
      obtain rfl | ⟨front,m,rfl⟩ := eq_nil_or_concat' front
      · cases begun rfl
      · rw [if_pos (truncated.mpr (by simp))]
        rw [getLast?_concat,Option.map_some,Option.getD_some] at next
        rw [append_assoc,singleton_append] at whole
        obtain ⟨later,left⟩ := once.next_page whole
        have fewer := congrArg List.length left
        have all := congrArg List.length whole
        rw [bySequence,sortBy_perm.length_eq] at fewer all
        simp only [length_append,length_cons] at all fewer
        rw [next,ih later (by omega),left,whole]
        simp

theorem once_pages_all (positive : 1 ≤ config.replayMaxMessages) (once : Once s scope last) :
    ∃ sent, (∀ n, (s.pending scope last).length < n → pages size config s scope n last = some sent) ∧ Ascending sent ∧
      ∀ m, m ∈ sent ↔ (∃ asset ∈ scope, m ∈ s.replayBuffer.held asset) ∧ last < m.sequenceId := by
  refine ⟨bySequence (s.pending scope last),fun n => once.paged positive,once.ascending,fun m => ?_⟩
  rw [bySequence,JsArray.mem_sortBy,mem_pending]

end

namespace Sample
open ReplayHonesty.Sample

theorem two_paged : 1 ≤ config.replayMaxMessages ∧ ∃ sent,
    (∀ n, (two.pending ["BTC","XLM"] 0).length < n → pages size config two ["BTC","XLM"] n 0 = some sent) ∧ Ascending sent ∧
      ∀ m, m ∈ sent ↔ (∃ asset ∈ ["BTC","XLM"], m ∈ two.replayBuffer.held asset) ∧ 0 < m.sequenceId :=
  ⟨by decide,once_pages_all (by decide) (by simp only [Once]; decide)⟩

-- An asset named twice is read twice.
theorem named_twice_sent_twice :
    readReplay JsText.plain ["XLM"] ⟨some (.num 0),some (.arr [.str "XLM",.str "XLM"])⟩ = .ok (0,["XLM","XLM"]) ∧
      one.replayBuffer.buffers.values.flatten.map BufferedMessage.sequenceId = [1] ∧ ∃ sent,
        pages size config one ["XLM","XLM"] 3 0 = some sent ∧ sent.map BufferedMessage.sequenceId = [1,1] := ⟨by decide,by decide,_,rfl,by decide⟩

end Sample

end StellarPriceOracle.ReplayPaging
