import PhxPaxos.Batches.Index
import PhxPaxos.Model.Replayer
import PhxPaxos.Recovery.Start
import PhxPaxos.StateMachines.Executions

/-!
# What the replayer executes

The replayer, the cleaner and the node work on one log. The replayer executes the instances one after the other, each with
the value of its record and with the calls that `Execute` makes for this value, and stays behind the node; the cleaner
takes no record away that the replayer still needs, as long as no state machine reports a checkpoint that is far beyond
what was replayed (`replays`). So it gets to the max-chosen instance whenever it may run (`catches_up`).

A `CheckpointSender` that found the replayer paused has it to itself, unless a call of `Continue` was overtaken by a
replayer that is about to report that it is paused (`paused_while_sending`, `replays_while_sending`).
-/

namespace PhxPaxos

variable {P : Params}

/-! ## The calls for a value -/

/-- The sub-values of a value, which the state machines are called for in this order; none when it cannot be parsed. -/
def calledValues (P : Params) (value : Bytes) : Option (List (Nat × PaxosValue)) :=
  if value.length < 4 then some []
  else if valueSMID value = 0 then some []
  else if valueSMID value = batchProposeSMID then (P.parseBatchPaxosValues (value.drop 4)).map (subValues 0)
  else some (subValues 0 [⟨valueSMID value, value.drop 4⟩])

/-- The calls are for the first of the sub-values, and for all of them after a success. -/
def CalledFor (sub : Option (List (Nat × PaxosValue))) (calls : List SMCall) (ok : Bool) : Prop :=
  match sub with
  | none => ok = false
  | some sub => ∃ k, calls.map SMCall.sub = sub.take k ∧ (ok = true → sub.length ≤ k)

/-- After two successes the calls are the same. -/
theorem CalledFor.same {sub : Option (List (Nat × PaxosValue))} {calls calls' : List SMCall} (h : CalledFor sub calls true)
    (h' : CalledFor sub calls' true) : calls.map SMCall.sub = calls'.map SMCall.sub := by
  cases sub with
  | none => cases h
  | some sub =>
    obtain ⟨k, hk, hall⟩ := h
    obtain ⟨k', hk', hall'⟩ := h'
    rw [hk, hk', List.take_of_length_le (hall rfl), List.take_of_length_le (hall' rfl)]

theorem smExecute_calledFor (P : Params) (i : Nat) (value : Bytes) (w : Proc) :
    CalledFor (calledValues P value) (smExecute P i value { w with smCalls := [] }).1.smCalls
      (smExecute P i value { w with smCalls := [] }).2 := by
  have hnothing : CalledFor (some []) ({ w with smCalls := [] } : Proc).smCalls true :=
    ⟨0, rfl, fun _ => Nat.le_refl _⟩
  unfold calledValues smExecute
  split
  · exact hnothing
  · split
    · exact hnothing
    · split
      · cases P.parseBatchPaxosValues (value.drop 4) with
        | none => rfl
        | some vs =>
          obtain ⟨k, hk, hall⟩ := batchExecute_subValues P i vs 0 { w with smCalls := [] }
          exact ⟨k, hk, hall⟩
      · obtain ⟨k, hk, hall⟩ :=
          doExecute_subValues P i 0 ⟨valueSMID value, value.drop 4⟩ { w with smCalls := [] }
        exact ⟨k, hk, hall⟩

/-- One more sub-value. -/
theorem doExecuteForCheckpoint_subValues (P : Params) (index : Nat) (v : PaxosValue) (r : CheckpointCalls) : ∃ k,
    (doExecuteForCheckpoint P index v.value v.smid r).1.calls.map SMCall.sub =
      r.calls.map SMCall.sub ++ (subValues index [v]).take k ∧
    ((doExecuteForCheckpoint P index v.value v.smid r).2 = true → (subValues index [v]).length ≤ k) := by
  have hcalls : (callExecuteForCheckpoint P v.smid r).1.calls = r.calls := by
    unfold callExecuteForCheckpoint
    split
    · rfl
    · split <;> rfl
  rw [subValues_cons]
  unfold doExecuteForCheckpoint
  by_cases h : v.smid = 0
  · rw [if_pos h, if_pos h]
    exact ⟨0, by simp, fun _ => Nat.le_refl _⟩
  · rw [if_neg h, if_neg h]
    refine ⟨1, ?_, fun _ => Nat.le_refl _⟩
    simp only [List.map_append, List.map_cons, List.map_nil, SMCall.sub]
    rw [hcalls]
    rfl

theorem batchExecuteForCheckpoint_subValues (P : Params) (vs : List PaxosValue) : ∀ (index : Nat) (r : CheckpointCalls), ∃ k,
    (batchExecuteForCheckpoint P index vs r).1.calls.map SMCall.sub =
      r.calls.map SMCall.sub ++ (subValues index vs).take k ∧
    ((batchExecuteForCheckpoint P index vs r).2 = true → (subValues index vs).length ≤ k) := by
  induction vs with
  | nil => exact fun index r => ⟨0, by simp [batchExecuteForCheckpoint], fun _ => Nat.le_refl _⟩
  | cons v vs ih =>
    intro index r
    have hsplit : subValues index (v :: vs) = subValues index [v] ++ subValues (index + 1) vs := by
      rw [subValues_cons, subValues_cons]
      split <;> rfl
    obtain ⟨k, hk, hall⟩ := doExecuteForCheckpoint_subValues P index v r
    unfold batchExecuteForCheckpoint
    generalize doExecuteForCheckpoint P index v.value v.smid r = res at hk hall ⊢
    obtain ⟨r', ok⟩ := res
    simp only at hk hall ⊢
    rw [hsplit]
    cases ok with
    | false =>
      rw [if_neg Bool.false_ne_true]
      refine ⟨min k (subValues index [v]).length, ?_, fun h => by cases h⟩
      rw [List.take_append_of_le_length (Nat.min_le_right _ _), hk]
      congr 1
      rw [← List.take_take, List.take_length]
    | true =>
      rw [if_pos rfl]
      obtain ⟨j, hj, hall'⟩ := ih (index + 1) r'
      refine ⟨(subValues index [v]).length + j, ?_, fun h => ?_⟩
      · rw [hj, hk, List.take_length_add_append, List.take_of_length_le (hall rfl), List.append_assoc]
      · rw [List.length_append]
        exact Nat.add_le_add_left (hall' h) _

/-- `ExecuteForCheckpoint` goes through a value like `Execute`. -/
theorem executeForCheckpoint_calledFor (P : Params) (value : Bytes) (answers : List Bool) :
    CalledFor (calledValues P value) (executeForCheckpoint P value { answers := answers }).1.calls
      (executeForCheckpoint P value { answers := answers }).2 := by
  have hnothing : CalledFor (some []) ({ answers := answers } : CheckpointCalls).calls true :=
    ⟨0, rfl, fun _ => Nat.le_refl _⟩
  unfold calledValues executeForCheckpoint
  split
  · exact hnothing
  · split
    · exact hnothing
    · split
      · cases P.parseBatchPaxosValues (value.drop 4) with
        | none => rfl
        | some vs =>
          obtain ⟨k, hk, hall⟩ := batchExecuteForCheckpoint_subValues P vs 0 { answers := answers }
          exact ⟨k, hk, hall⟩
      · obtain ⟨k, hk, hall⟩ :=
          doExecuteForCheckpoint_subValues P 0 ⟨valueSMID value, value.drop 4⟩ { answers := answers }
        exact ⟨k, hk, hall⟩

/-! ## The node and its log, while the process runs -/

namespace Host

variable {h : Host} {b : Bool} {d : Nat} {e : HostEvent}

/-- Only checkpoints change what the state machines report. -/
theorem step_sms (hcheckpoint : ∀ smid id, e ≠ .checkpoint smid id) : (h.step P e).sms = h.sms := by
  cases e with
  | work kind env =>
    rcases work_cases (P := P) h kind env with heq | ⟨-, -, heq⟩
    · rw [heq]
    · rw [heq]
  | checkpoint smid id => exact absurd rfl (hcheckpoint smid id)
  | clean env =>
    change (if h.node.stopped then h else h.clean env).sms = h.sms
    split
    · rfl
    · exact (clean_sms h env).1
  | _ => rfl

/-- The first instance after the checkpoint stays below a bound for the checkpoints that are reported. -/
theorem start_le_of_step {n : Nat} (hle : SMFac.start h.sms ≤ n)
    (hcheckpoint : ∀ smid id, e = .checkpoint smid id → nextInstance id ≤ n) : SMFac.start (h.step P e).sms ≤ n := by
  by_cases hex : ∃ smid id, e = .checkpoint smid id
  · obtain ⟨smid, id, rfl⟩ := hex
    exact start_raise_le hle (hcheckpoint smid id rfl)
  · rw [step_sms fun smid id heq => hex ⟨smid, id, heq⟩]
    exact hle

theorem clean_get (h : Host) (env : Env) (i : Nat) :
    (h.clean env).node.storage.get i = h.node.storage.get i ∨ (h.clean env).node.storage.get i = none := by
  unfold clean setMinChosenInstanceID
  simp only []
  split
  · exact Or.inl rfl
  · exact Or.inl rfl
  · exact Or.inl rfl
  · rename_i instanceID _ _ _
    split
    · split
      · change (h.node.storage.del instanceID).get i = _ ∨ (h.node.storage.del instanceID).get i = _
        rw [LogStorage.get_del]
        split
        · exact Or.inr rfl
        · exact Or.inl rfl
      · exact Or.inl rfl
    · exact Or.inl rfl
  · split
    · split <;> split <;> exact Or.inl rfl
    · exact Or.inl rfl

/-- A running process goes on: it leaves the instances it has passed as they are, or they are deleted. -/
theorem step_passed (hi : h.InStep) (hk : h.Tracked b d) (hr : h.Regular P e) (hstart : ∀ env, e ≠ .start env) :
    h.node.instanceID ≤ (h.step P e).node.instanceID ∧ ∀ i < h.node.instanceID,
      (h.step P e).node.storage.get i = h.node.storage.get i ∨ (h.step P e).node.storage.get i = none := by
  cases e with
  | work kind env =>
    rcases work_cases (P := P) h kind env with heq | ⟨hrun, hkind, heq⟩
    · rw [heq]
      exact ⟨le_rfl, fun i _ => Or.inl rfl⟩
    · have hlog := hr.log
      rw [heq] at hlog ⊢
      obtain ⟨-, hextends⟩ := @handle_extends P (h.proc env) kind hkind (hi.commit hrun) hlog hk.written
      exact ⟨hextends.le, fun i hlt => Or.inl (hextends.before i hlt)⟩
  | checkpoint | setHoldPaxosLogCount => exact ⟨le_rfl, fun i _ => Or.inl rfl⟩
  | clean env =>
    change h.node.instanceID ≤ (if h.node.stopped then h else h.clean env).node.instanceID ∧ ∀ i < h.node.instanceID,
      (if h.node.stopped then h else h.clean env).node.storage.get i = _ ∨
        (if h.node.stopped then h else h.clean env).node.storage.get i = none
    split
    · exact ⟨le_rfl, fun i _ => Or.inl rfl⟩
    · obtain ⟨storage, mgr, hnode, -⟩ := clean_node h env
      refine ⟨?_, fun i _ => clean_get h env i⟩
      rw [hnode]
  | start env => exact absurd rfl (hstart env)

/-- The first record stays below an instance that no reported checkpoint is more than 300 beyond. -/
theorem Tracked.first_le_step (hk : h.Tracked b d) (hi : h.InStep) (hr : h.Regular P e) {b' : Bool} {d' n : Nat}
    (hk' : (h.step P e).Tracked b' d') (hd : d ≤ n) (hstart : SMFac.start (h.step P e).sms ≤ n + 300) : d' ≤ n := by
  rcases hk'.log.stored_le.eq_or_lt with heq | hlt
  · have hmin := hk.minimum_le hi hr
    omega
  · obtain ⟨x, hx, hxd⟩ := hk'.log.frontier hlt
    have hcovered := hk'.log.covered x hx
    omega

end Host

/-! ## The replayer at work -/

/-- What the replayer has played: all of it below instance `n`, and read as `R` says. -/
structure Replayer.Played (P : Params) (n : Nat) (R : Nat → Bytes → Prop) (r : Replayer) : Prop where
  order : ∃ first k, applied (r.played.map CheckpointExecution.toExecution) = List.range' first k ∧ first + k = r.instanceID
  start : r.pc = .start → r.played = []
  played : ∀ e ∈ r.played, e.instanceID < n ∧ R e.instanceID e.value ∧ CalledFor (calledValues P e.value) e.calls e.ok
  playOne : r.pc = .playOne → r.instanceID < n
  execute : ∀ value, r.pc = .execute value → r.instanceID < n ∧ R r.instanceID value

namespace Replayer.Played

variable {n n' : Nat} {R R' : Nat → Bytes → Prop} {r : Replayer}

theorem new : Played P n R {} where
  order := ⟨0, 0, rfl, rfl⟩
  start _ := rfl
  played e he := absurd he List.not_mem_nil
  playOne hpc := by cases hpc
  execute value hpc := by cases hpc

theorem mono (h : Played P n R r) (hn : n ≤ n') (hR : ∀ i value, i < n → R i value → R' i value) : Played P n' R' r where
  order := h.order
  start := h.start
  played e he := by
    obtain ⟨hlt, hread, hcalls⟩ := h.played e he
    exact ⟨hlt.trans_le hn, hR _ _ hlt hread, hcalls⟩
  playOne hpc := (h.playOne hpc).trans_le hn
  execute value hpc := by
    obtain ⟨hlt, hread⟩ := h.execute value hpc
    exact ⟨hlt.trans_le hn, hR _ _ hlt hread⟩

/-- The flags are not read. -/
theorem flags (h : Played P n R r) (canrun isPaused : Bool) :
    Played P n R { r with canrun := canrun, isPaused := isPaused } :=
  ⟨h.order, h.start, h.played, h.playOne, h.execute⟩

/-- One step of the thread, which sees the max-chosen instance id and the records of past instances. -/
theorem step (h : Played P n R r) {v : ReplayView} (hmax : v.maxChosenInstanceID ≤ n)
    (hread : ∀ i s, i < n → v.readState i = some s → R i s.acceptedValue) (answers : List Bool) :
    Played P n R (r.step P v answers) := by
  unfold Replayer.step
  cases hpc : r.pc with
  | start =>
    constructor
    · exact ⟨v.start, 0, by simp [h.start hpc, applied], rfl⟩
    · exact fun heq => by cases heq
    · exact h.played
    · exact fun heq => by cases heq
    · exact fun _ heq => by cases heq
  | loop =>
    constructor
    · exact h.order
    · intro heq
      simp only at heq
      split at heq <;> cases heq
    · exact h.played
    · intro heq
      simp only at heq
      split at heq <;> cases heq
    · intro _ heq
      simp only at heq
      split at heq <;> cases heq
  | pausing =>
    constructor
    · exact h.order
    · exact fun heq => by cases heq
    · exact h.played
    · exact fun heq => by cases heq
    · exact fun _ heq => by cases heq
  | compare =>
    constructor
    · exact h.order
    · intro heq
      simp only at heq
      split at heq <;> cases heq
    · exact h.played
    · intro heq
      simp only at heq
      split at heq
      · cases heq
      · change r.instanceID < n
        omega
    · intro _ heq
      simp only at heq
      split at heq <;> cases heq
  | playOne =>
    have hlt := h.playOne hpc
    cases hs : v.readState r.instanceID with
    | none =>
      constructor
      · exact h.order
      · exact fun heq => by cases heq
      · exact h.played
      · exact fun heq => by cases heq
      · exact fun _ heq => by cases heq
    | some s =>
      constructor
      · exact h.order
      · exact fun heq => by cases heq
      · exact h.played
      · exact fun heq => by cases heq
      · intro value heq
        cases heq
        exact ⟨hlt, hread _ _ hlt hs⟩
  | execute value =>
    obtain ⟨hlt, hvalue⟩ := h.execute value hpc
    have hcalls := executeForCheckpoint_calledFor P value answers
    simp only []
    generalize executeForCheckpoint P value { answers := answers } = res at hcalls ⊢
    obtain ⟨c, ok⟩ := res
    constructor
    · obtain ⟨first, k, hk, hsum⟩ := h.order
      simp only [List.map_append, List.map_cons, List.map_nil, applied_append, hk]
      cases ok with
      | false => exact ⟨first, k, by simp [applied], hsum⟩
      | true =>
        refine ⟨first, k + 1, ?_, by simp only [if_true]; omega⟩
        rw [List.range'_concat, Nat.one_mul, hsum]
        rfl
    · exact fun heq => by cases heq
    · intro e he
      rcases List.mem_append.mp he with he | he
      · exact h.played e he
      · obtain rfl := List.mem_singleton.mp he
        exact ⟨hlt, hvalue, hcalls⟩
    · exact fun heq => by cases heq
    · exact fun _ heq => by cases heq

end Replayer.Played

namespace ReplayHost

/-- The step is regular for the host, and a checkpoint that is reported once the replayer has started is at most 300
instances beyond what it has replayed. -/
def Regular (P : Params) (h : ReplayHost) : ReplayEvent → Prop
  | .host e => h.host.Regular P e ∧ ∀ smid id, e = .checkpoint smid id → h.replayer.pc ≠ .start →
      nextInstance id ≤ h.replayer.instanceID + 300
  | _ => True

/-- The states that a node reaches with its replayer, from a complete log that reaches down to the checkpoint. -/
inductive ReplayRun (P : Params) : ReplayHost → Prop
  | init {h : Host} : h.Complete → h.node.storage.minimum ≤ SMFac.start h.sms → ReplayRun P { host := h }
  | step {h e} : ReplayRun P h → h.Regular P e → ReplayRun P (h.step P e)

/-- A value that is that of the record of the instance, if the record is still there. -/
def Logged (h : Host) (i : Nat) (value : Bytes) : Prop := ∀ s, h.node.storage.get i = some s → s.acceptedValue = value

/-- What holds of the host with its first record `d`, and of the replayer. -/
structure Follows (P : Params) (h : ReplayHost) (b : Bool) (d : Nat) : Prop where
  tracked : h.host.Tracked b d
  first_le : d ≤ SMFac.start h.host.sms
  played : h.replayer.Played P h.host.node.instanceID (Logged h.host)
  behind : h.replayer.pc ≠ .start → d ≤ h.replayer.instanceID ∧ SMFac.start h.host.sms ≤ h.replayer.instanceID + 300

variable {h : ReplayHost} {b : Bool} {d : Nat}

/-- Besides the host and the replayer, all that happens is that the flags of the replayer are set. -/
theorem step_cases (h : ReplayHost) (e : ReplayEvent) : (∃ e', e = .host e') ∨ (∃ answers, e = .replay answers) ∨
    ∃ canrun isPaused, (h.step P e).host = h.host ∧
      (h.step P e).replayer = { h.replayer with canrun := canrun, isPaused := isPaused } := by
  cases e with
  | host e' => exact Or.inl ⟨e', rfl⟩
  | replay answers => exact Or.inr (Or.inl ⟨answers, rfl⟩)
  | pause | continuePaused => exact Or.inr (Or.inr ⟨_, _, rfl, rfl⟩)
  | continueCanrun =>
    right; right
    unfold step
    simp only []
    split <;> exact ⟨_, _, rfl, rfl⟩
  | newSender =>
    right; right
    unfold step
    simp only []
    split <;> exact ⟨_, _, rfl, rfl⟩
  | send fails =>
    right; right
    unfold step send
    simp only []
    split
    · exact ⟨_, _, rfl, rfl⟩
    · split
      · split <;> exact ⟨_, _, rfl, rfl⟩
      · exact ⟨_, _, rfl, rfl⟩
      · exact ⟨_, _, rfl, rfl⟩
      · split <;> exact ⟨_, _, rfl, rfl⟩
      · exact ⟨_, _, rfl, rfl⟩
      · exact ⟨_, _, rfl, rfl⟩

theorem step_host (h : ReplayHost) (e : HostEvent) : (h.step P (.host e)).host = h.host.step P e := by
  cases e <;> rfl

theorem step_replay (h : ReplayHost) (answers : List Bool) : h.step P (.replay answers) = h ∨
    h.host.node.stopped = false ∧
      h.step P (.replay answers) = { h with replayer := h.replayer.step P h.view answers } := by
  cases hrun : h.host.node.stopped with
  | true => exact Or.inl (if_pos hrun)
  | false => exact Or.inr ⟨rfl, if_neg (by rw [hrun]; exact Bool.false_ne_true)⟩

theorem ReplayRun.startRun (hr : ReplayRun P h) : h.host.StartRun P := by
  induction hr with
  | init hc hmin => exact .init hc hmin
  | @step h e _ hregular ih =>
    rcases step_cases (P := P) h e with ⟨e, rfl⟩ | ⟨answers, rfl⟩ | ⟨canrun, isPaused, hhost, -⟩
    · rw [step_host]
      exact ih.step hregular.1
    · rcases step_replay (P := P) h answers with heq | ⟨-, heq⟩
      · rw [heq]
        exact ih
      · rw [heq]
        exact ih
    · rw [hhost]
      exact ih

/-- Once it has started, the replayer only goes on. -/
theorem instanceID_le_step {r : Replayer} (hpc : r.pc ≠ .start) (v : ReplayView) (answers : List Bool) :
    r.instanceID ≤ (r.step P v answers).instanceID := by
  unfold Replayer.step
  split
  · exact absurd ‹_› hpc
  · exact le_rfl
  · exact le_rfl
  · exact le_rfl
  · split <;> exact le_rfl
  · simp only []
    split
    · exact Nat.le_succ _
    · exact le_rfl

/-- The host goes on, and the replayer with it. -/
theorem Follows.host (hf : h.Follows P b d) (hi : h.host.InStep) {e : HostEvent} (hr : h.Regular P (.host e)) :
    ∃ b' d', (h.step P (.host e)).Follows P b' d' := by
  obtain ⟨hregular, hcheckpoint⟩ := hr
  obtain ⟨d', hk'⟩ := hf.tracked.step hi hregular
  have hfirst : d' ≤ SMFac.start (h.host.step P e).sms := by
    apply hk'.first_le
    calc (h.host.step P e).node.storage.minimum ≤ d := hf.tracked.minimum_le hi hregular
      _ ≤ SMFac.start h.host.sms := hf.first_le
      _ ≤ SMFac.start (h.host.step P e).sms := Host.start_le_step h.host e
  by_cases hstart : ∃ env, e = .start env
  · obtain ⟨env, rfl⟩ := hstart
    exact ⟨_, d', hk', hfirst, .new, fun hpc => absurd rfl hpc⟩
  · have hnew : ∀ env, e ≠ .start env := fun env heq => hstart ⟨env, heq⟩
    have hstep : h.step P (.host e) = { h with host := h.host.step P e } := by
      cases e with
      | start env => exact absurd rfl (hnew env)
      | _ => rfl
    obtain ⟨hle, hsame⟩ := Host.step_passed hi hf.tracked hregular hnew
    rw [hstep]
    refine ⟨_, d', hk', hfirst, hf.played.mono hle fun i value hlt hlogged s hs => ?_, fun hpc => ?_⟩
    · rcases hsame i hlt with heq | hnone
      · exact hlogged s (heq ▸ hs)
      · rw [hnone] at hs
        cases hs
    · obtain ⟨hd, hbehind⟩ := hf.behind hpc
      have hbehind' := Host.start_le_of_step (P := P) hbehind fun smid id heq => hcheckpoint smid id heq hpc
      exact ⟨hf.tracked.first_le_step hi hregular hk' hd hbehind', hbehind'⟩

theorem Follows.step (hf : h.Follows P b d) (hi : h.host.InStep) {e : ReplayEvent} (hr : h.Regular P e) :
    ∃ b' d', (h.step P e).Follows P b' d' := by
  rcases step_cases (P := P) h e with ⟨e, rfl⟩ | ⟨answers, rfl⟩ | ⟨canrun, isPaused, hhost, hreplayer⟩
  · exact hf.host hi hr
  · rcases step_replay (P := P) h answers with heq | ⟨hrun, heq⟩
    · rw [heq]
      exact ⟨b, d, hf⟩
    · rw [heq]
      refine ⟨b, d, hf.tracked, hf.first_le, hf.played.step (hi.maxChosen hrun) (fun i s _ hs s' hs' => ?_) answers, fun _ => ?_⟩
      · exact congrArg AcceptorStateData.acceptedValue (Option.some.inj (hs'.symm.trans hs))
      · by_cases hpc : h.replayer.pc = .start
        · have hid : (h.replayer.step P h.view answers).instanceID = SMFac.start h.host.sms := by
            unfold Replayer.step
            rw [hpc]
            rfl
          simp only [hid]
          exact ⟨hf.first_le, Nat.le_add_right _ _⟩
        · obtain ⟨hd, hbehind⟩ := hf.behind hpc
          have hle := instanceID_le_step (P := P) hpc h.view answers
          exact ⟨hd.trans hle, hbehind.trans (Nat.add_le_add_right hle 300)⟩
  · refine ⟨b, d, ?_, ?_, ?_, ?_⟩
    · rw [hhost]
      exact hf.tracked
    · rw [hhost]
      exact hf.first_le
    · rw [hhost, hreplayer]
      exact hf.played.flags canrun isPaused
    · rw [hhost, hreplayer]
      exact hf.behind

theorem ReplayRun.follows (hr : ReplayRun P h) : h.host.InStep ∧ ∃ b d, h.Follows P b d := by
  refine ⟨hr.startRun.tracked.1, ?_⟩
  induction hr with
  | init hc hmin => exact ⟨_, _, hc.tracked, hmin, .new, fun hpc => absurd rfl hpc⟩
  | step hr hregular ih =>
    obtain ⟨b, d, hf⟩ := ih
    exact hf.step hr.startRun.tracked.1 hregular

/-- **The replayer makes the checkpoint of what was executed**: it plays the instances one after the other, all of them
passed by the node, each with the value of its record and, when it succeeds, with the calls that `Execute` makes for this
value; and the record that it reads next has not been deleted. -/
theorem replays (hr : ReplayRun P h) :
    (∃ first k, applied (h.replayer.played.map CheckpointExecution.toExecution) = List.range' first k ∧
      first + k = h.replayer.instanceID) ∧
    (∀ e ∈ h.replayer.played, e.instanceID < h.host.node.instanceID ∧ Logged h.host e.instanceID e.value ∧
      (e.ok = true → ∀ w : Proc, (smExecute P e.instanceID e.value { w with smCalls := [] }).2 = true →
        e.calls.map SMCall.sub =
          (smExecute P e.instanceID e.value { w with smCalls := [] }).1.smCalls.map SMCall.sub)) ∧
    (h.replayer.pc = .playOne → (h.view.readState h.replayer.instanceID).isSome = true) := by
  obtain ⟨-, b, d, hf⟩ := hr.follows
  refine ⟨hf.played.order, fun e he => ?_, fun hpc => ?_⟩
  · obtain ⟨hlt, hlogged, hcalls⟩ := hf.played.played e he
    refine ⟨hlt, hlogged, fun hok w hw => ?_⟩
    have hexecute := smExecute_calledFor P e.instanceID e.value w
    rw [hok] at hcalls
    rw [hw] at hexecute
    exact hcalls.same hexecute
  · obtain ⟨hd, -⟩ := hf.behind (by rw [hpc]; simp)
    have hmin := hf.tracked.log.stored_le
    exact (hf.tracked.log.kept _ (hmin.trans hd) (hf.played.playOne hpc)).mpr hd

/-- A node at instance 3 whose log holds the instances before, with a state machine of the user that has no checkpoint. -/
def shortHost : Host where
  node := { Node.new ((Group.ofList [1]).config 1)
      { records := (List.range 3).map fun i => (i, learnedRecord i ⟨1, 1⟩ (packPaxosValue [7] 1) 0) } with
    instanceID := 3, stopped := true }
  sms := [⟨1, noCheckpoint⟩]

theorem shortHost_complete : shortHost.Complete := by
  refine ⟨rfl, rfl, rfl, ⟨?_, ?_, ?_⟩, ?_, Or.inl ?_, ?_⟩
  · decide +kernel
  · exact fun h => absurd rfl h
  · exact fun h => absurd h Bool.false_ne_true
  · decide +kernel
  · decide +kernel
  · have hall : ∀ i < 3, (shortHost.node.storage.get i).isSome = true := by decide +kernel
    exact fun i _ hlt => hall i hlt

/-- The node is started and its replayer is told to go on, which has read the checkpoint. -/
def shortReplay : ReplayHost :=
  ((((({ host := shortHost } : ReplayHost).step twoSMs (.host (.start {}))).step twoSMs .continuePaused).step twoSMs
    .continueCanrun).step twoSMs (.replay []))

theorem shortReplay_run : ReplayRun twoSMs shortReplay := by
  apply ReplayRun.step
  · apply ReplayRun.step
    · apply ReplayRun.step
      · apply ReplayRun.step
        · exact .init shortHost_complete (by decide +kernel)
        · exact ⟨Host.regular_sound (by decide +kernel), fun smid id heq => by cases heq⟩
      · trivial
    · trivial
  · trivial

/-! ## Catching up -/

/-- The replayer makes `k` steps, in which every state machine answers that it succeeded. -/
def replay (P : Params) : Nat → ReplayHost → ReplayHost
  | 0, h => h
  | k + 1, h => replay P k (h.step P (.replay []))

theorem replay_add (j : Nat) : ∀ (k : Nat) (h : ReplayHost), replay P (j + k) h = replay P k (replay P j h) := by
  induction j with
  | zero => exact fun k h => congrArg (replay P · h) (Nat.zero_add k)
  | succ j ih =>
    intro k h
    rw [Nat.succ_add]
    exact ih k _

theorem ReplayRun.replay (k : Nat) : ∀ {h : ReplayHost}, ReplayRun P h → ReplayRun P (replay P k h) := by
  induction k with
  | zero => exact fun hr => hr
  | succ k ih => exact fun hr => ih (hr.step (e := .replay []) trivial)

/-- The replayer of `shortReplay` plays instance 0. -/
theorem replays_shortReplay : (replay twoSMs 4 shortReplay).replayer.played =
      [⟨⟨0, true, [⟨0, 1, [7], true⟩]⟩, packPaxosValue [7] 1⟩] ∧
    ∀ e ∈ (replay twoSMs 4 shortReplay).replayer.played, e.instanceID < (replay twoSMs 4 shortReplay).host.node.instanceID := by
  constructor
  · decide +kernel
  · exact fun e he => ((replays (ReplayRun.replay 4 shortReplay_run)).2.1 e he).1

/-- A turn of the loop that plays an instance. -/
theorem replay_one (hrun : h.host.node.stopped = false) (hpc : h.replayer.pc = .loop) (hcanrun : h.replayer.canrun = true)
    (hlt : h.replayer.instanceID < h.host.node.checkpointMgr.maxChosenInstanceID) {s : AcceptorStateData}
    (hs : h.host.node.storage.get h.replayer.instanceID = some s)
    (hok : (executeForCheckpoint P s.acceptedValue { answers := [] }).2 = true) : ∃ played,
    replay P 4 h = { h with replayer := { h.replayer with instanceID := h.replayer.instanceID + 1, played := played } } := by
  obtain ⟨host, ⟨canrun, isPaused, pc, instanceID, played⟩, sender, needContinue, continuing⟩ := h
  simp only at hrun hpc hcanrun hlt hs hok
  subst hpc hcanrun
  rcases hexecute : executeForCheckpoint P s.acceptedValue { answers := [] } with ⟨c, ok⟩
  rw [hexecute] at hok
  obtain rfl : ok = true := hok
  refine ⟨played ++ [⟨⟨instanceID, true, c.calls⟩, s.acceptedValue⟩], ?_⟩
  simp only [replay, ReplayHost.step, hrun, Bool.false_eq_true, if_false, Replayer.step, view, if_true, ge_iff_le,
    Nat.not_le.mpr hlt, hs, hexecute]

/-- From the head of its loop the replayer takes four steps for each instance up to the max-chosen one. -/
theorem replay_loop (hr : ReplayRun P h) (hrun : h.host.node.stopped = false) (hpc : h.replayer.pc = .loop)
    (hcanrun : h.replayer.canrun = true)
    (hok : ∀ i s, h.replayer.instanceID ≤ i → h.host.node.storage.get i = some s →
      (executeForCheckpoint P s.acceptedValue { answers := [] }).2 = true) :
    (replay P (4 * (h.host.node.checkpointMgr.maxChosenInstanceID - h.replayer.instanceID)) h).replayer.instanceID =
      max h.replayer.instanceID h.host.node.checkpointMgr.maxChosenInstanceID := by
  obtain ⟨hi, b, d, hf⟩ := hr.follows
  obtain ⟨hd, -⟩ := hf.behind (by rw [hpc]; simp)
  have hmax := hi.maxChosen hrun
  have hrecords : ∀ i, h.replayer.instanceID ≤ i → i < h.host.node.checkpointMgr.maxChosenInstanceID →
      (h.host.node.storage.get i).isSome = true := fun i hle hlt =>
    (hf.tracked.log.kept i (hf.tracked.log.stored_le.trans (hd.trans hle)) (hlt.trans_le hmax)).mpr (hd.trans hle)
  clear hr hi hf hd hmax
  generalize hk : h.host.node.checkpointMgr.maxChosenInstanceID - h.replayer.instanceID = k
  -- the node stands still, so the distance gets smaller with each turn
  induction k generalizing h with
  | zero =>
    change h.replayer.instanceID = _
    omega
  | succ k ih =>
    obtain ⟨s, hs⟩ := Option.isSome_iff_exists.mp (hrecords _ le_rfl (by omega))
    obtain ⟨played, hone⟩ := replay_one (P := P) hrun hpc hcanrun (by omega) hs (hok _ s le_rfl hs)
    rw [Nat.mul_succ, Nat.add_comm, replay_add, hone]
    refine (ih ?_ ?_ ?_ ?_ ?_ ?_).trans ?_
    · exact hrun
    · exact hpc
    · exact hcanrun
    · exact fun i s' hle => hok i s' (Nat.le_of_succ_le hle)
    · exact fun i hle => hrecords i (Nat.le_of_succ_le hle)
    · simp only
      omega
    · simp only
      omega

/-- The instance that the replayer plays next. -/
def next (h : ReplayHost) : Nat := if h.replayer.pc = .start then SMFac.start h.host.sms else h.replayer.instanceID

theorem replay_host (k : Nat) : ∀ h : ReplayHost, (replay P k h).host = h.host := by
  induction k with
  | zero => exact fun _ => rfl
  | succ k ih =>
    intro h
    rw [replay, ih]
    rcases step_replay (P := P) h [] with heq | ⟨-, heq⟩ <;> rw [heq]

/-- The replayer does not go back, and does not start again. -/
theorem replay_next (k : Nat) : ∀ {h : ReplayHost}, h.replayer.pc ≠ .start →
    (replay P k h).replayer.pc ≠ .start ∧ h.replayer.instanceID ≤ (replay P k h).replayer.instanceID := by
  induction k with
  | zero => exact fun hpc => ⟨hpc, le_rfl⟩
  | succ k ih =>
    intro h hpc
    rcases step_replay (P := P) h [] with heq | ⟨-, heq⟩
    · rw [replay, heq]
      exact ih hpc
    · have hpc' : (h.replayer.step P h.view []).pc ≠ .start := by
        unfold Replayer.step
        split
        · exact nofun
        · dsimp only
          split <;> exact nofun
        · exact nofun
        · dsimp only
          split <;> exact nofun
        · split <;> exact nofun
        · exact nofun
      rw [replay, heq]
      obtain ⟨hnot, hle⟩ := ih (h := { h with replayer := h.replayer.step P h.view [] }) hpc'
      exact ⟨hnot, (instanceID_le_step hpc h.view []).trans hle⟩

/-- The replayer gets to the head of its loop in at most three steps. -/
theorem replay_toLoop (hr : ReplayRun P h) (hrun : h.host.node.stopped = false) (hcanrun : h.replayer.canrun = true)
    (hok : ∀ i s, h.next ≤ i → h.host.node.storage.get i = some s →
      (executeForCheckpoint P s.acceptedValue { answers := [] }).2 = true) :
    ∃ j ≤ 3, (replay P j h).replayer.pc = .loop ∧ (replay P j h).replayer.canrun = true ∧
      h.next ≤ (replay P j h).replayer.instanceID := by
  obtain ⟨hi, b, d, hf⟩ := hr.follows
  have hmax := hi.maxChosen hrun
  obtain ⟨host, ⟨canrun, isPaused, pc, instanceID, played⟩, sender, needContinue, continuing⟩ := h
  obtain rfl : canrun = true := hcanrun
  -- the record of an instance that the node has passed is there, and can be executed
  have hrecord : pc ≠ .start → instanceID < host.node.instanceID → ∃ s, host.node.storage.get instanceID = some s ∧
      (executeForCheckpoint P s.acceptedValue { answers := [] }).2 = true := by
    intro hpc hlt
    obtain ⟨hd, -⟩ := hf.behind hpc
    have hsome := (hf.tracked.log.kept instanceID (hf.tracked.log.stored_le.trans hd) hlt).mpr hd
    obtain ⟨s, hs⟩ := Option.isSome_iff_exists.mp hsome
    exact ⟨s, hs, hok instanceID s (by rw [next, if_neg hpc]) hs⟩
  simp only at hrun
  cases pc with
  | start => exact ⟨1, by decide, by simp [replay, ReplayHost.step, hrun, Replayer.step, next, view]⟩
  | loop => exact ⟨0, by decide, by simp [replay, next]⟩
  | pausing => exact ⟨1, by decide, by simp [replay, ReplayHost.step, hrun, Replayer.step, next]⟩
  | compare =>
    by_cases hge : host.node.checkpointMgr.maxChosenInstanceID ≤ instanceID
    · exact ⟨1, by decide, by simp [replay, ReplayHost.step, hrun, Replayer.step, next, view, hge]⟩
    · obtain ⟨s, hs, hexecutes⟩ := hrecord nofun ((Nat.not_le.mp hge).trans_le hmax)
      exact ⟨3, le_rfl, by simp [replay, ReplayHost.step, hrun, Replayer.step, next, view, hge, hs, hexecutes]⟩
  | playOne =>
    obtain ⟨s, hs, hexecutes⟩ := hrecord nofun (hf.played.playOne rfl)
    exact ⟨2, by decide, by simp [replay, ReplayHost.step, hrun, Replayer.step, next, view, hs, hexecutes]⟩
  | execute value =>
    obtain ⟨hlt, hlogged⟩ := hf.played.execute value rfl
    obtain ⟨s, hs, hexecutes⟩ := hrecord nofun hlt
    obtain rfl : s.acceptedValue = value := hlogged s hs
    exact ⟨1, by decide, by simp [replay, ReplayHost.step, hrun, Replayer.step, next, hexecutes]⟩

/-- **A replayer that may run catches up**: wherever it is, every record from its place to the max-chosen instance is there,
so it gets there in four steps for each instance, and three to come to the head of its loop, if each can be executed. -/
theorem catches_up (hr : ReplayRun P h) (hrun : h.host.node.stopped = false) (hcanrun : h.replayer.canrun = true)
    (hok : ∀ i s, h.next ≤ i → h.host.node.storage.get i = some s →
      (executeForCheckpoint P s.acceptedValue { answers := [] }).2 = true) {k : Nat}
    (hk : 4 * (h.host.node.checkpointMgr.maxChosenInstanceID - h.next) + 3 ≤ k) :
    h.host.node.checkpointMgr.maxChosenInstanceID ≤ (replay P k h).replayer.instanceID := by
  obtain ⟨j, hj, hpc, hmay, hnext⟩ := replay_toLoop hr hrun hcanrun hok
  have hhost := replay_host (P := P) j h
  have hloop := replay_loop (hr.replay j) (by rwa [hhost]) hpc hmay fun i s hle => by
    rw [hhost]
    exact hok i s (hnext.trans hle)
  rw [hhost] at hloop
  generalize hlast : (replay P j h).replayer.instanceID = last at hnext hloop
  obtain ⟨l, rfl⟩ : ∃ l, k = j + (4 * (h.host.node.checkpointMgr.maxChosenInstanceID - last) + l) :=
    ⟨k - j - 4 * (h.host.node.checkpointMgr.maxChosenInstanceID - last), by omega⟩
  have hnot := (replay_next (P := P) (4 * (h.host.node.checkpointMgr.maxChosenInstanceID - last))
    (h := replay P j h) (by rw [hpc]; exact nofun)).1
  rw [replay_add, replay_add]
  calc h.host.node.checkpointMgr.maxChosenInstanceID ≤ max last h.host.node.checkpointMgr.maxChosenInstanceID := le_max_right _ _
    _ = _ := hloop.symm
    _ ≤ _ := (replay_next l hnot).2

/-- The node is started, and its replayer is told to go on when it has found that it may not run. -/
def resumedReplay : ReplayHost :=
  (((((({ host := shortHost } : ReplayHost).step twoSMs (.host (.start {}))).step twoSMs (.replay [])).step twoSMs
    (.replay [])).step twoSMs .continuePaused).step twoSMs .continueCanrun)

theorem resumedReplay_run : ReplayRun twoSMs resumedReplay := by
  have hstarted : ReplayRun twoSMs (({ host := shortHost } : ReplayHost).step twoSMs (.host (.start {}))) :=
    .step (.init shortHost_complete (by decide +kernel)) ⟨Host.regular_sound (by decide +kernel), nofun⟩
  exact .step (.step (.step (.step hstarted trivial) trivial) trivial) trivial

/-- The replayer of `resumedReplay` reports that it is paused, and then plays the instances 0 and 1. -/
theorem catches_up_resumedReplay :
    resumedReplay.replayer.pc = .pausing ∧ 2 ≤ (replay twoSMs 11 resumedReplay).replayer.instanceID := by
  have hrun : resumedReplay.host.node.stopped = false := by decide +kernel
  have hcanrun : resumedReplay.replayer.canrun = true := by decide +kernel
  have hid : resumedReplay.next = 0 := by decide +kernel
  have hmax : resumedReplay.host.node.checkpointMgr.maxChosenInstanceID = 2 := by decide +kernel
  have hall : ∀ x ∈ resumedReplay.host.node.storage.records,
      (executeForCheckpoint twoSMs x.2.acceptedValue { answers := [] }).2 = true := by decide +kernel
  have hcaught := catches_up resumedReplay_run hrun hcanrun (fun i s _ hs => hall (i, s) (Files.mem_of_lookup hs))
    (k := 11) (by rw [hid, hmax])
  rw [hmax] at hcaught
  exact ⟨by decide +kernel, hcaught⟩

/-! ## Pausing for a checkpoint -/

/-- The replayer has found that it may run, and has not come back to the head of its loop. -/
def Playing (r : Replayer) : Prop := r.pc = .compare ∨ r.pc = .playOne ∨ ∃ value, r.pc = .execute value

/-- A call of `Continue` and the replayer's own write of `m_bIsPaused` overtake each other: the replayer reports that it is
paused when it may run again, or it may run when it has reported that. -/
def Overtakes (h : ReplayHost) : ReplayEvent → Prop
  | .replay _ => h.replayer.pc = .pausing ∧ h.replayer.canrun = true
  | .continueCanrun => h.replayer.isPaused = true
  | .send _ => h.sender = .continueCanrun ∧ h.replayer.isPaused = true
  | _ => False

/-- The user continues the replayer while a checkpoint is sent. -/
def Intrudes (h : ReplayHost) (e : ReplayEvent) : Prop := e = .continuePaused ∧ h.sender = .sending

/-- The states that a node reaches from any host, as long as no call of `Continue` and the replayer overtake each other and
the user leaves the replayer alone while a checkpoint is sent. -/
inductive PauseRun (P : Params) : ReplayHost → Prop
  | init {h : Host} : PauseRun P { host := h }
  | step {h e} : PauseRun P h → ¬ h.Overtakes e → ¬ h.Intrudes e → PauseRun P (h.step P e)

/-- What the flags tell. -/
structure Handshake (h : ReplayHost) : Prop where
  paused : h.replayer.isPaused = true → h.replayer.canrun = false ∧ ¬ Playing h.replayer
  sending : h.sender = .sending → h.replayer.isPaused = true

theorem Handshake.new (h : Host) : Handshake { host := h } := by
  constructor
  · intro _
    simp [Playing]
  · exact fun hs => by cases hs

theorem Handshake.replay (hh : h.Handshake) {answers : List Bool} (ho : ¬ h.Overtakes (.replay answers)) :
    (h.step P (.replay answers)).Handshake := by
  rcases step_replay (P := P) h answers with heq | ⟨-, heq⟩
  · rw [heq]
    exact hh
  · rw [heq]
    obtain ⟨hpaused, hsending⟩ := hh
    have hplaying : Playing h.replayer → h.replayer.isPaused = false := by
      intro hplay
      cases hp : h.replayer.isPaused with
      | false => rfl
      | true => exact absurd hplay (hpaused hp).2
    unfold Replayer.step
    cases hpc : h.replayer.pc with
    | start =>
      refine ⟨fun hp => ⟨(hpaused hp).1, ?_⟩, hsending⟩
      simp [Playing]
    | loop =>
      refine ⟨fun hp => ?_, hsending⟩
      obtain ⟨hcanrun, -⟩ := hpaused hp
      simp only [hcanrun, Bool.false_eq_true, if_false]
      simp [Playing]
    | pausing =>
      constructor
      · intro _
        cases hcanrun : h.replayer.canrun with
        | true => exact absurd ⟨hpc, hcanrun⟩ ho
        | false =>
          refine ⟨rfl, ?_⟩
          simp [Playing]
      · exact fun _ => rfl
    | compare =>
      have hnot := hplaying (Or.inl hpc)
      refine ⟨fun hp => ?_, hsending⟩
      exact absurd (hnot.symm.trans hp) Bool.false_ne_true
    | playOne =>
      have hnot := hplaying (Or.inr (Or.inl hpc))
      simp only []
      split
      · refine ⟨fun hp => ?_, hsending⟩
        exact absurd (hnot.symm.trans hp) Bool.false_ne_true
      · refine ⟨fun hp => ?_, hsending⟩
        exact absurd (hnot.symm.trans hp) Bool.false_ne_true
    | execute value =>
      have hnot := hplaying (Or.inr (Or.inr ⟨value, hpc⟩))
      refine ⟨fun hp => ?_, hsending⟩
      exact absurd (hnot.symm.trans hp) Bool.false_ne_true

theorem Handshake.send (hh : h.Handshake) {fails : Bool} (ho : ¬ h.Overtakes (.send fails)) :
    (h.send fails).Handshake := by
  obtain ⟨hpaused, hsending⟩ := hh
  unfold ReplayHost.send
  cases hs : h.sender with
  | isPaused =>
    cases hp : h.replayer.isPaused with
    | true => exact ⟨hpaused, fun _ => hp⟩
    | false =>
      refine ⟨hpaused, fun heq => ?_⟩
      cases fails <;> cases heq
  | pause => exact ⟨fun hp => ⟨rfl, (hpaused hp).2⟩, fun heq => by cases heq⟩
  | sending => exact ⟨hpaused, fun heq => by cases heq⟩
  | continuePaused =>
    simp only []
    split
    · exact ⟨fun hp => (by cases hp), fun heq => by cases heq⟩
    · exact ⟨hpaused, fun heq => by cases heq⟩
  | continueCanrun => exact ⟨fun hp => absurd ⟨hs, hp⟩ ho, fun heq => by cases heq⟩
  | ended => exact ⟨hpaused, fun heq => absurd (hs.symm.trans heq) (by simp)⟩

theorem Handshake.step (hh : h.Handshake) {e : ReplayEvent} (ho : ¬ h.Overtakes e) (hi : ¬ h.Intrudes e) :
    (h.step P e).Handshake := by
  cases e with
  | host e =>
    cases e with
    | start env => exact .new _
    | _ => exact ⟨hh.paused, hh.sending⟩
  | replay answers => exact hh.replay ho
  | pause => exact ⟨fun hp => ⟨rfl, (hh.paused hp).2⟩, hh.sending⟩
  | continuePaused => exact ⟨fun hp => (by cases hp), fun hs => absurd ⟨rfl, hs⟩ hi⟩
  | continueCanrun =>
    unfold ReplayHost.step
    simp only []
    split
    · exact hh
    · exact ⟨fun hp => absurd hp ho, hh.sending⟩
  | newSender =>
    unfold ReplayHost.step
    simp only []
    split
    · exact ⟨hh.paused, fun hs => by cases hs⟩
    · exact hh
  | send fails =>
    unfold ReplayHost.step
    simp only []
    split
    · exact hh
    · exact hh.send ho

theorem PauseRun.handshake (hr : PauseRun P h) : h.Handshake := by
  induction hr with
  | init => exact .new _
  | step _ ho hi ih => exact ih.step ho hi

/-- **While a checkpoint is sent the replayer is idle**: it may not run, it has not found earlier that it may, and nothing that
happens next, short of a new process, makes it execute an instance. -/
theorem paused_while_sending (hr : PauseRun P h) (hs : h.sender = .sending) :
    h.replayer.canrun = false ∧ ¬ Playing h.replayer ∧
      ∀ e, (∀ env, e ≠ .host (.start env)) → (h.step P e).replayer.played = h.replayer.played := by
  have hh := hr.handshake
  obtain ⟨hcanrun, hplaying⟩ := hh.paused (hh.sending hs)
  refine ⟨hcanrun, hplaying, fun e hstart => ?_⟩
  rcases step_cases (P := P) h e with ⟨e, rfl⟩ | ⟨answers, rfl⟩ | ⟨canrun, isPaused, -, hreplayer⟩
  · cases e with
    | start env => exact absurd rfl (hstart env)
    | _ => rfl
  · rcases step_replay (P := P) h answers with heq | ⟨-, heq⟩
    · rw [heq]
    · rw [heq]
      unfold Replayer.step
      cases hpc : h.replayer.pc with
      | start | loop | pausing => rfl
      | compare => exact absurd (Or.inl hpc) hplaying
      | playOne => exact absurd (Or.inr (Or.inl hpc)) hplaying
      | execute value => exact absurd (Or.inr (Or.inr ⟨value, hpc⟩)) hplaying
  · rw [hreplayer]

/-- The conditions of `PauseRun` by computation. -/
def quiet (h : ReplayHost) : ReplayEvent → Bool
  | .replay _ => !(decide (h.replayer.pc = .pausing) && h.replayer.canrun)
  | .continuePaused => decide (h.sender ≠ .sending)
  | .continueCanrun => !h.replayer.isPaused
  | .send _ => !(decide (h.sender = .continueCanrun) && h.replayer.isPaused)
  | _ => true

theorem quiet_sound {e : ReplayEvent} (hq : h.quiet e = true) : ¬ h.Overtakes e ∧ ¬ h.Intrudes e := by
  cases e with
  | replay => exact ⟨fun ho => by simp [quiet, ho.1, ho.2] at hq, fun hi => by cases hi.1⟩
  | continuePaused => exact ⟨id, fun hi => by simp [quiet, hi.2] at hq⟩
  | continueCanrun => exact ⟨by simpa [quiet, Overtakes] using hq, fun hi => by cases hi.1⟩
  | send => exact ⟨fun ho => by simp [quiet, ho.1, ho.2] at hq, fun hi => by cases hi.1⟩
  | _ => exact ⟨id, fun hi => by cases hi.1⟩

def run (P : Params) (es : List ReplayEvent) (h : ReplayHost) : ReplayHost := es.foldl (fun h e => h.step P e) h

def runQuiet (P : Params) : List ReplayEvent → ReplayHost → Bool
  | [], _ => true
  | e :: es, h => h.quiet e && runQuiet P es (h.step P e)

theorem PauseRun.of_events {es : List ReplayEvent} : ∀ {h : ReplayHost}, PauseRun P h → runQuiet P es h = true →
    PauseRun P (h.run P es) := by
  induction es with
  | nil => exact fun hr _ => hr
  | cons e es ih =>
    intro h hr hq
    simp only [runQuiet, Bool.and_eq_true] at hq
    obtain ⟨ho, hi⟩ := quiet_sound hq.1
    exact ih (hr.step ho hi) hq.2

/-- The replayer is told to go on and a checkpoint is to be sent: the sender tells the replayer to pause, which does so. -/
def pauseEvents : List ReplayEvent :=
  [.host (.start {}), .continuePaused, .continueCanrun, .replay [], .newSender, .send false, .send false, .replay [],
    .replay [], .send false]

theorem paused_while_sending_pauseEvents : ¬ Playing (({ host := shortHost } : ReplayHost).run twoSMs pauseEvents).replayer := by
  have hr : PauseRun twoSMs (({ host := shortHost } : ReplayHost).run twoSMs pauseEvents) :=
    .of_events .init (by decide +kernel)
  exact (paused_while_sending hr (by decide +kernel)).2.1

/-- When they overtake each other, the replayer may run and says that it is paused. -/
theorem Overtakes.flags {e : ReplayEvent} (ho : h.Overtakes e) (hrun : h.host.node.stopped = false)
    (hcontinuing : e = .continueCanrun → h.continuing ≠ 0) :
    (h.step P e).replayer.isPaused = true ∧ (h.step P e).replayer.canrun = true := by
  cases e with
  | replay answers =>
    obtain ⟨hpc, hcanrun⟩ := ho
    simp [step, hrun, Replayer.step, hpc, hcanrun]
  | continueCanrun =>
    have hpaused : h.replayer.isPaused = true := ho
    simp [step, hcontinuing rfl, hpaused]
  | send fails =>
    obtain ⟨hs, hpaused⟩ := ho
    simp [step, hrun, ReplayHost.send, hs, hpaused]
  | _ => exact False.elim ho

/-- Then the next checkpoint is sent while the replayer executes: the sender does not pause a replayer that says that it is
paused. -/
theorem replays_while_sending (hrun : h.host.node.stopped = false) (hsender : h.sender = .ended)
    (hpaused : h.replayer.isPaused = true) (hcanrun : h.replayer.canrun = true) (hpc : h.replayer.pc = .loop)
    (hlt : h.replayer.instanceID < h.host.node.checkpointMgr.maxChosenInstanceID) {s : AcceptorStateData}
    (hs : h.host.node.storage.get h.replayer.instanceID = some s) :
    (h.run P [.newSender, .send false, .replay [], .replay [], .replay []]).sender = .sending ∧
      (h.run P [.newSender, .send false, .replay [], .replay [], .replay []]).replayer.pc = .execute s.acceptedValue := by
  obtain ⟨host, ⟨canrun, isPaused, pc, instanceID, played⟩, sender, needContinue, continuing⟩ := h
  simp only at hrun hsender hpaused hcanrun hpc hlt hs
  subst hsender hpaused hcanrun hpc
  simp [run, ReplayHost.step, hrun, ReplayHost.send, Replayer.step, view, Nat.not_le.mpr hlt, hs]

end ReplayHost

end PhxPaxos
