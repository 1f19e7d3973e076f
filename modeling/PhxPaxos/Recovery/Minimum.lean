import PhxPaxos.Model.Cleaner
import PhxPaxos.Timers.Shift

/-!
# What a node leaves alone

Whatever a node handles, it does not touch its min-chosen instance id, neither the one in memory nor the stored one, unless it
clears its log for a checkpoint (`handle_minimum`): only the cleaner and a start of the process move it.
-/

namespace PhxPaxos

/-- The min-chosen instance id in memory and in the storage. -/
def Proc.minimum (w : Proc) : Nat × Option Nat :=
  (w.node.checkpointMgr.minChosenInstanceID, w.node.storage.minChosenInstanceID)

variable {P : Params}

/-- Only a move that clears the log touches the minimum. -/
theorem Move.minimum_eq {a : Allow} {g g' : Gear} (hclear : ¬ a.clear) (h : Move a g g') : g'.minimum = g.minimum := by
  cases h with
  | clear ha => exact absurd ha hclear
  | @proposerTimeout timerID type _ _ =>
    unfold Gear.onProposerTimeout
    split <;> rfl
  | startCommit _ _ =>
    unfold Gear.startCommit Gear.armCommitTimer
    split <;> rfl
  | _ => rfl

theorem Shift.minimum_eq {a : Allow} {w w' : Proc} (hclear : ¬ a.clear) (h : Shift a w w') : w'.minimum = w.minimum := by
  obtain ⟨new, -, hm⟩ := h
  have hkeeps {g g' : Gear} (hg : g.minimum = w.minimum) (hmove : Move (a.failing (Fails new)) g g') :
      g'.minimum = w.minimum := (Move.minimum_eq (a := a.failing (Fails new)) hclear hmove).trans hg
  exact hm.keeps hkeeps rfl

theorem resetAskforLearnNoop_minimum (w : Proc) : (resetAskforLearnNoop w).minimum = w.minimum := rfl

/-! ## Checkpoints -/

theorem receiveCheckpoint_minimum (msg : CheckpointMsg) (w : Proc) : (receiveCheckpoint msg w).1.minimum = w.minimum := by
  unfold receiveCheckpoint
  simp only []
  split
  · rfl
  · split
    · rfl
    · split
      · rfl
      · split <;> rfl

theorem onSendCheckpointEnd_minimum (msg : CheckpointMsg) (w : Proc) :
    (onSendCheckpointEnd msg w).1.minimum = w.minimum := by
  unfold onSendCheckpointEnd
  split
  · rfl
  · split <;> rfl

theorem clearAllLog_cases (w : Proc) : (clearAllLog w).node.stopped = true ∧ (clearAllLog w).minimum = w.minimum ∨
    .clearAllLog w.me ∈ (clearAllLog w).hist := by
  unfold clearAllLog
  split
  · exact Or.inr List.mem_cons_self
  · exact Or.inl ⟨rfl, rfl⟩
  · exact Or.inr List.mem_cons_self

/-- The first message of a transfer: the log is cleared, or nothing happens, or the process dies before. -/
theorem onSendCheckpointBegin_cases (msg : CheckpointMsg) (w : Proc) :
    (onSendCheckpointBegin msg w).1.minimum = w.minimum ∨ .clearAllLog w.me ∈ (onSendCheckpointBegin msg w).1.hist := by
  unfold onSendCheckpointBegin newReceiver
  simp only []
  cases hfiles : w.env.filesOk with
  | false => exact Or.inl rfl
  | true =>
    simp only [Bool.not_true, Bool.false_eq_true, if_false, ne_eq, not_true_eq_false, false_or]
    rcases clearAllLog_cases w with ⟨hstopped, hminimum⟩ | hclear
    · rw [if_pos hstopped]
      exact Or.inl hminimum
    · refine Or.inr ?_
      split
      · exact hclear
      · unfold setMinChosenInstanceID
        simp only []
        split <;> exact hclear

/-- A node that does not clear its log for a checkpoint leaves the minimum alone. -/
theorem onSendCheckpoint_minimum (msg : CheckpointMsg) (w : Proc)
    (hclear : .clearAllLog w.me ∉ (onSendCheckpoint msg w).hist) : (onSendCheckpoint msg w).minimum = w.minimum := by
  have hflag : (onSendCheckpointFlag msg w).1.minimum = w.minimum ∨
      .clearAllLog w.me ∈ (onSendCheckpointFlag msg w).1.hist := by
    unfold onSendCheckpointFlag
    split
    · exact onSendCheckpointBegin_cases msg w
    · exact Or.inl (receiveCheckpoint_minimum msg w)
    · exact Or.inl (onSendCheckpointEnd_minimum msg w)
  unfold onSendCheckpoint at hclear ⊢
  simp only [] at hclear ⊢
  split at hclear
  · rw [if_pos ‹_›]
  · rw [if_neg ‹_›]
    split at hclear
    · rw [if_pos ‹_›]
      exact hflag.resolve_right hclear
    · rw [if_neg ‹_›]
      split at hclear
      · rw [if_pos ‹_›]
        exact (resetAskforLearnNoop_minimum _).trans (hflag.resolve_right hclear)
      · rw [if_neg ‹_›]
        exact (resetAskforLearnNoop_minimum _).trans (hflag.resolve_right hclear)

/-! ## Every event -/

/-- **What a node handles leaves the minimum alone**, unless it clears the log. -/
theorem handle_minimum {kind : EventKind} (hkind : ∀ cp, kind ≠ .restart cp) (w : Proc)
    (hclear : .clearAllLog w.me ∉ (handle P kind w).hist) : (handle P kind w).minimum = w.minimum := by
  by_cases hcp : ∃ gid msg, kind = .receiveCheckpoint gid msg
  · obtain ⟨gid, msg, rfl⟩ := hcp
    by_cases hs : w.node.stopped = true
    · exact congrArg _ (if_pos hs)
    · have heq : handle P (.receiveCheckpoint gid msg) w =
          if w.node.config.getGid ≠ 0 ∧ gid ≠ 0 ∧ w.node.config.getGid ≠ gid then w
          else onSendCheckpoint msg (leaveRetry w) := if_neg hs
      rw [heq] at hclear ⊢
      split at hclear
      · rw [if_pos ‹_›]
      · rw [if_neg ‹_›]
        exact onSendCheckpoint_minimum msg (leaveRetry w) hclear
  · have hshift : Shift ⟨True, True, False, False⟩ w (handle P kind w) :=
      handle_shift hkind w (Or.inl trivial) (fun _ _ => trivial) fun gid msg h => hcp ⟨gid, msg, h⟩
    exact hshift.minimum_eq not_false

end PhxPaxos
