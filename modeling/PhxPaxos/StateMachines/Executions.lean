import PhxPaxos.Steps.System
import PhxPaxos.Model.Run

/-!
# What a process executes

`executions n h` is what the process of node `n` that came up last has executed, read off the history: the instances that
`PlayLog` replayed and those that were learned since. A process applies instances one after the other (`InOrder`). A
value whose execution failed is executed again, from its first sub-value on, so that a sub-value is executed only once
(`Once`) as long as executions fail at their first call (`FailsFirst`).
-/

namespace PhxPaxos

variable {P : Params} {D : Deliver} {G : Group}

/-! ## Executions of one process -/

/-- What the process of node `n` that came up last has executed, the first one first. -/
def executions (n : NodeID) : List Obs → List Execution
  | [] => []
  | .execute m i _ ok calls :: h => if m = n then executions n h ++ [⟨i, ok, calls⟩] else executions n h
  | .playLog m played true :: h => if m = n then played else executions n h
  | _ :: h => executions n h

/-- The instances whose execution succeeded. -/
def applied (es : List Execution) : List Nat := (es.filter Execution.ok).map Execution.instanceID

/-- Instances are applied in increasing order, without gaps. -/
def InOrder (es : List Execution) : Prop := ∃ start, applied es = List.range' start (applied es).length

/-- The calls of state machines, each with its instance. -/
def subCalls (es : List Execution) : List (Nat × SMCall) := es.flatMap fun e => e.calls.map fun c => (e.instanceID, c)

/-- A sub-value whose `Execute` returned true is not executed again. -/
def Once (es : List Execution) : Prop :=
  (subCalls es).Pairwise fun c d => c.1 = d.1 → c.2.index = d.2.index → c.2.ok = false

instance (es : List Execution) : Decidable (Once es) := inferInstanceAs (Decidable (List.Pairwise _ _))

/-- When the execution of a value failed at node `n`, no sub-value of it had been executed. -/
def FailsFirst (n : NodeID) (h : List Obs) : Prop :=
  ∀ i v calls, .execute n i v false calls ∈ h → ∀ c ∈ calls, c.ok = false

theorem FailsFirst.suffix {n : NodeID} {h h' : List Obs} (hsuf : h <:+ h') (hf : FailsFirst n h') : FailsFirst n h :=
  fun i v calls hm => hf i v calls (hsuf.subset hm)

@[simp] theorem applied_append (es fs : List Execution) : applied (es ++ fs) = applied es ++ applied fs := by
  simp [applied]

@[simp] theorem subCalls_append (es fs : List Execution) : subCalls (es ++ fs) = subCalls es ++ subCalls fs := by
  simp [subCalls]

theorem applied_of_ok {es : List Execution} (h : ∀ e ∈ es, e.ok = true) : applied es = es.map Execution.instanceID := by
  unfold applied
  rw [List.filter_eq_self.mpr h]

theorem mem_subCalls {es : List Execution} {c : Nat × SMCall} :
    c ∈ subCalls es ↔ ∃ e ∈ es, e.instanceID = c.1 ∧ c.2 ∈ e.calls := by
  obtain ⟨i, c⟩ := c
  constructor
  · intro h
    obtain ⟨e, he, hc⟩ := List.mem_flatMap.mp h
    obtain ⟨d, hd, heq⟩ := List.mem_map.mp hc
    cases heq
    exact ⟨e, he, rfl, hd⟩
  · rintro ⟨e, he, rfl, hc⟩
    exact List.mem_flatMap.mpr ⟨e, he, List.mem_map_of_mem hc⟩

/-- The sub-values of one value are called in order, so each once. -/
theorem Execution.Orderly.once {e : Execution} (h : e.Orderly) : Once [e] := by
  unfold Once subCalls
  rw [List.flatMap_cons, List.flatMap_nil, List.append_nil, List.pairwise_map]
  exact h.1.imp fun hlt _ heq => absurd heq hlt.ne

/-- One more value is executed, of which no sub-value has been executed yet. -/
theorem Once.append {es : List Execution} {e : Execution} (h : Once es) (he : e.Orderly)
    (hbelow : ∀ c ∈ subCalls es, c.2.ok = true → c.1 < e.instanceID) : Once (es ++ [e]) := by
  unfold Once
  rw [subCalls_append]
  refine List.pairwise_append.mpr ⟨h, he.once, ?_⟩
  intro c hc d hd hi _
  obtain ⟨f, hf, hfi, -⟩ := mem_subCalls.mp hd
  rw [List.mem_singleton.mp hf] at hfi
  refine Bool.eq_false_iff.mpr fun hok => ?_
  exact absurd (hbelow c hc hok) (by omega)

/-! ## Replaying the log -/

namespace PlayedFrom

variable {start : Nat} {played : List Execution}

theorem mem_range (h : PlayedFrom start played) {e : Execution} (he : e ∈ played) :
    start ≤ e.instanceID ∧ e.instanceID < start + played.length := by
  have hm : e.instanceID ∈ played.map Execution.instanceID := List.mem_map_of_mem he
  rw [h.instances, List.mem_range'_1] at hm
  exact hm

theorem inOrder (h : PlayedFrom start played) : InOrder played := by
  rcases List.eq_nil_or_concat played with rfl | ⟨es, e, rfl⟩
  · exact ⟨0, rfl⟩
  · rw [List.concat_eq_append] at h ⊢
    have hes : ∀ f ∈ es, f.ok = true := by simpa using h.ok
    have hi : es.map Execution.instanceID ++ [e.instanceID] = List.range' start es.length ++ [start + es.length] := by
      have hi := h.instances
      rwa [List.map_append, List.length_append, List.length_singleton, List.range'_concat, Nat.one_mul] at hi
    have hlen : (es.map Execution.instanceID).length = (List.range' start es.length).length := by simp
    obtain ⟨hes', he'⟩ := List.append_inj hi hlen
    refine ⟨start, ?_⟩
    rw [applied_append, applied_of_ok hes, hes']
    cases he : e.ok with
    | false => simp [applied, he]
    | true =>
      have heq : e.instanceID = start + es.length := by simpa using he'
      simp [applied, he, heq, List.range'_concat]

theorem once (h : PlayedFrom start played) : Once played := by
  have hlt : played.Pairwise fun e f => e.instanceID < f.instanceID := by
    have hsorted : (played.map Execution.instanceID).Pairwise (· < ·) := by
      rw [h.instances]
      exact List.pairwise_lt_range'
    exact List.pairwise_map.mp hsorted
  refine List.pairwise_flatMap.mpr ⟨?_, ?_⟩
  · intro e he
    rw [List.pairwise_map]
    exact (h.orderly e he).1.imp fun hlt _ heq => absurd heq hlt.ne
  · refine hlt.imp fun hef c hc d hd heq => ?_
    obtain ⟨c', -, rfl⟩ := List.mem_map.mp hc
    obtain ⟨d', -, rfl⟩ := List.mem_map.mp hd
    exact absurd heq hef.ne

end PlayedFrom

/-! ## Steps -/

/-- What a step does to the executions of node `n`. -/
inductive ExecutionStep (n : NodeID) (l l' : Loc) : Prop
  | same : l'.core.instanceID = l.core.instanceID → executions n l'.hist = executions n l.hist → ExecutionStep n l l'
  | fail (v : Bytes) (calls : List SMCall) : Execution.Orderly ⟨l.core.instanceID, false, calls⟩ →
      l'.core.instanceID = l.core.instanceID → .execute n l.core.instanceID v false calls ∈ l'.hist →
      executions n l'.hist = executions n l.hist ++ [⟨l.core.instanceID, false, calls⟩] → ExecutionStep n l l'
  | apply (calls : List SMCall) : Execution.Orderly ⟨l.core.instanceID, true, calls⟩ →
      l'.core.instanceID = l.core.instanceID + 1 →
      executions n l'.hist = executions n l.hist ++ [⟨l.core.instanceID, true, calls⟩] → ExecutionStep n l l'
  | restart (start : Nat) (played : List Execution) : PlayedFrom start played → (∀ e ∈ played, e.ok = true) →
      l'.core.instanceID = start + played.length → executions n l'.hist = played → ExecutionStep n l l'

section Step

variable {can : PaxosMsg → Prop} {n : NodeID} {l l' : Loc}

/-- A start that failed leaves no process. -/
theorem executions_startFailed {i cp : Nat} {played : List Execution} {h h' : List Obs}
    (hs : Started n i cp played false h h') : executions n h' = executions n h := by
  obtain ⟨obs, hobs, rfl⟩ := hs
  simp only [executions]
  induction obs with
  | nil => rfl
  | cons o obs ih =>
    obtain ⟨j, S, rfl⟩ := hobs o List.mem_cons_self
    exact ih fun o ho => hobs o (List.mem_cons_of_mem _ ho)

theorem Act.executionStep (h : Act P can n l l') : ExecutionStep n l l' := by
  cases h with
  | executeFail _ ho => exact .fail _ _ ho rfl List.mem_cons_self (if_pos rfl)
  | advance _ _ ho => exact .apply _ ho rfl (if_pos rfl)
  | restart _ _ _ hs hp hi hok =>
    obtain ⟨obs, -, rfl⟩ := hs
    exact .restart _ _ hp hok hi.symm (if_pos rfl)
  | restartFail _ hs => exact .same rfl (executions_startFailed hs)
  | _ => exact .same rfl rfl

/-- What `PlayLog` executes is executed in order, whether or not the start succeeds. -/
theorem Act.playLog_mem (h : Act P can n l l') {played : List Execution} {ok : Bool}
    (hm : .playLog n played ok ∈ l'.hist) : .playLog n played ok ∈ l.hist ∨ ∃ start, PlayedFrom start played := by
  have start {i cp start : Nat} {played' : List Execution} {ok' : Bool} {h : List Obs}
      (hs : Started n i cp played' ok' l.hist h) (hp : PlayedFrom start played') (hm : .playLog n played ok ∈ h) :
      .playLog n played ok ∈ l.hist ∨ ∃ start, PlayedFrom start played := by
    obtain ⟨obs, rfl, hobs⟩ := hs.obs
    refine (List.mem_append.mp hm).symm.imp_right fun hm => ?_
    rcases hobs _ hm with heq | heq | ⟨j, S, heq⟩
    · cases heq
      exact ⟨_, hp⟩
    · cases heq
    · cases heq
  cases h with
  | restart _ _ _ hs hp => exact start hs hp hm
  | restartFail _ hs hp => exact start hs hp hm
  | _ => exact Or.inl (by simpa using hm)

/-- Only steps of node `n` execute there. -/
theorem executions_of_ne {obs h : List Obs} (hobs : ∀ o ∈ obs, o.node ≠ n) : executions n (obs ++ h) = executions n h := by
  induction obs with
  | nil => rfl
  | cons o obs ih =>
    have ih := ih fun o ho => hobs o (List.mem_cons_of_mem _ ho)
    have ho := hobs o List.mem_cons_self
    cases o with
    | execute m i v ok calls => exact (if_neg ho).trans ih
    | playLog m played ok =>
      cases ok with
      | false => exact ih
      | true => exact (if_neg ho).trans ih
    | _ => exact ih

end Step

/-! ## Runs -/

/-- The process of node `n` has applied the instances before its own, from some instance on. -/
structure Executed (n : NodeID) (l : Loc) : Prop where
  inOrder : ∃ start, applied (executions n l.hist) = List.range' start (applied (executions n l.hist)).length ∧
    start + (applied (executions n l.hist)).length = l.core.instanceID
  played : ∀ played ok, .playLog n played ok ∈ l.hist → ∃ start, PlayedFrom start played

theorem Executed.step {n : NodeID} {l l' : Loc} (hinv : Executed n l) (h : ExecutionStep n l l')
    (hplayed : ∀ played ok, .playLog n played ok ∈ l'.hist → ∃ start, PlayedFrom start played) : Executed n l' := by
  obtain ⟨start, happlied, hi⟩ := hinv.inOrder
  refine ⟨?_, hplayed⟩
  cases h with
  | same hi' he => exact ⟨start, by rw [he]; exact happlied, by rw [he, hi, hi']⟩
  | fail v calls _ hi' _ he =>
    have heq : applied (executions n l'.hist) = applied (executions n l.hist) := by
      rw [he, applied_append]
      exact List.append_nil _
    rw [heq]
    exact ⟨start, happlied, by rw [hi, hi']⟩
  | apply calls _ hi' he =>
    have heq : applied (executions n l'.hist) = applied (executions n l.hist) ++ [l.core.instanceID] := by
      rw [he, applied_append]
      rfl
    have hlen : (applied (executions n l'.hist)).length = (applied (executions n l.hist)).length + 1 := by
      rw [heq, List.length_append, List.length_singleton]
    refine ⟨start, ?_, by omega⟩
    rw [hlen, List.range'_concat, Nat.one_mul, heq, ← happlied, hi]
  | restart start' played hp hok hi' he =>
    rw [he, applied_of_ok hok, List.length_map]
    exact ⟨start', hp.instances, hi'.symm⟩

theorem Stepping.executed {s : Abs} (hs : Stepping P D G s) (n : NodeID) : Executed n (s.loc n) := by
  refine hs.forall_loc (fun _ => True) (fun _ _ => trivial) (I := Executed) ?_ ?_ ?_ trivial n
  · exact fun n => ⟨⟨0, rfl, rfl⟩, by simp [Group.abs, Abs.loc]⟩
  · intro s n l _ _ ih hact
    exact (ih n).step hact.executionStep fun played ok hm => (hact.playLog_mem hm).elim ((ih n).played played ok) id
  · intro s n l k _ _ ih hact hk
    obtain ⟨obs, hh, hobs⟩ := hact.obs
    have he : executions k l.hist = executions k s.hist := by
      rw [hh]
      exact executions_of_ne fun o ho => (hobs o ho).trans_ne hk.symm
    refine ⟨?_, fun played ok hm => ?_⟩
    · simp only
      rw [he]
      exact (ih k).inOrder
    · rw [show l.hist = obs ++ s.hist from hh] at hm
      exact (ih k).played played ok ((List.mem_append.mp hm).resolve_left fun hm => hk (hobs _ hm))

/-- The process of node `n` executed no sub-value twice. -/
structure ExecutedOnce (n : NodeID) (l : Loc) : Prop where
  below : ∀ c ∈ subCalls (executions n l.hist), c.2.ok = true → c.1 < l.core.instanceID
  once : Once (executions n l.hist)

theorem ExecutedOnce.step {n : NodeID} {l l' : Loc} (hinv : ExecutedOnce n l) (h : ExecutionStep n l l')
    (hf : FailsFirst n l'.hist) : ExecutedOnce n l' := by
  cases h with
  | same hi he =>
    exact ⟨by rw [he, hi]; exact hinv.below, by rw [he]; exact hinv.once⟩
  | fail v calls ho hi hm he =>
    have hnone : ∀ c ∈ subCalls [⟨l.core.instanceID, false, calls⟩], c.2.ok = false := by
      intro c hc
      obtain ⟨e, he, -, hc⟩ := mem_subCalls.mp hc
      rw [List.mem_singleton.mp he] at hc
      exact hf _ v calls hm c.2 hc
    refine ⟨?_, by rw [he]; exact hinv.once.append ho hinv.below⟩
    rw [he, subCalls_append, hi]
    intro c hc hok
    rcases List.mem_append.mp hc with hc | hc
    · exact hinv.below c hc hok
    · rw [hnone c hc] at hok
      cases hok
  | apply calls ho hi he =>
    refine ⟨?_, by rw [he]; exact hinv.once.append ho hinv.below⟩
    rw [he, subCalls_append, hi]
    intro c hc hok
    rcases List.mem_append.mp hc with hc | hc
    · exact (hinv.below c hc hok).trans (Nat.lt_succ_self _)
    · obtain ⟨e, he, heq, -⟩ := mem_subCalls.mp hc
      rw [List.mem_singleton.mp he] at heq
      exact heq ▸ Nat.lt_succ_self _
  | restart start played hp _ hi he =>
    refine ⟨?_, by rw [he]; exact hp.once⟩
    rw [he, hi]
    intro c hc _
    obtain ⟨e, hm, heq, -⟩ := mem_subCalls.mp hc
    exact heq ▸ (hp.mem_range hm).2

theorem Stepping.executedOnce {s : Abs} (hs : Stepping P D G s) {n : NodeID} (hf : FailsFirst n s.hist) :
    ExecutedOnce n (s.loc n) := by
  refine hs.forall_loc (FailsFirst n) FailsFirst.suffix (I := fun k l => k = n → ExecutedOnce n l) ?_ ?_ ?_ hf n rfl
  · exact fun k _ => ⟨by simp [Group.abs, Abs.loc, executions, subCalls], List.Pairwise.nil⟩
  · rintro s k l _ hg ih hact rfl
    exact (ih k rfl).step hact.executionStep hg
  · rintro s m l k _ _ ih hact hk rfl
    obtain ⟨obs, hh, hobs⟩ := hact.obs
    have he : executions k l.hist = executions k s.hist := by
      rw [hh]
      exact executions_of_ne fun o ho => (hobs o ho).trans_ne hk.symm
    refine ⟨?_, ?_⟩
    · simp only
      rw [he]
      exact (ih k rfl).below
    · simp only
      rw [he]
      exact (ih k rfl).once

/-! ## Each instance in order, each sub-value once -/

/-- **A process executes in order, and each sub-value once**, as long as an execution that fails does so at its first
call: in every state of every run, the process of node `n` has applied instances without gaps, from where it replayed its
log or started on, and has executed no sub-value again whose `Execute` returned true; nor has a process whose start
failed. -/
theorem executes_in_order_once {s : Sys} (hs : Reachable P D G s) (n : NodeID) :
    InOrder (executions n s.hist) ∧ (FailsFirst n s.hist → Once (executions n s.hist)) ∧
      ∀ played ok, .playLog n played ok ∈ s.hist → InOrder played ∧ Once played := by
  have hexec := hs.stepping.executed n
  obtain ⟨start, happlied, -⟩ := hexec.inOrder
  refine ⟨⟨start, happlied⟩, fun hf => (hs.stepping.executedOnce hf).once, fun played ok hm => ?_⟩
  obtain ⟨start, hp⟩ := hexec.played played ok hm
  exact ⟨hp.inOrder, hp.once⟩

/-- A batch of two values for the state machine 5, as it is serialized. -/
def batchBody : Bytes := [10, 5, 8, 5, 18, 1, 1, 10, 5, 8, 5, 18, 1, 2]

/-- A library with one state machine of the user. -/
def batchParams : Params :=
  { Params.plain with
    parseBatchPaxosValues := fun bs => if bs = batchBody then some [⟨5, [1]⟩, ⟨5, [2]⟩] else none
    smids := [5] }

/-- A node on its own commits the batch, with the given outcomes of `Execute`; then a client proposes once more. -/
def batchRun (executes : List Bool) : List Event :=
  [⟨1, .newValueGetID 0 batchBody batchProposeSMID, {}⟩, ⟨1, .lock 0, {}⟩, ⟨1, .checkNewValue, { executes := executes }⟩,
    ⟨1, .getResult 0, {}⟩] ++ proposeEvents 1 1 [7]

/-- An execution at node 1 that fails does so at its first call. -/
def failsFirst : Obs → Bool
  | .execute 1 _ _ false calls => calls.all fun c => !c.ok
  | _ => true

def notRestart : Obs → Bool
  | .restart _ _ _ => false
  | _ => true

theorem executes_in_order_once_batchRun :
    InOrder (executions 1 (Sys.run batchParams (batchRun [false]) (Sys.init batchParams (.ofList [1]))).hist) ∧
      Once (executions 1 (Sys.run batchParams (batchRun [false]) (Sys.init batchParams (.ofList [1]))).hist) := by
  obtain ⟨horder, honce, -⟩ := executes_in_order_once (P := batchParams) (D := inNetwork) (G := .ofList [1])
    (.of_run batchParams .init (by decide +kernel : Sys.canRun batchParams (batchRun [false]) _ = true)) 1
  refine ⟨horder, honce fun i v calls hm => ?_⟩
  have hall : (Sys.run batchParams (batchRun [false]) (Sys.init batchParams (.ofList [1]))).hist.all failsFirst = true := by
    decide +kernel
  simpa [failsFirst] using List.all_eq_true.mp hall _ hm

/-- The first sub-value is executed again, after the second one failed. -/
theorem sub_value_executed_twice : ∃ s, Reachable batchParams inNetwork (.ofList [1]) s ∧
    (∀ n i cp, .restart n i cp ∉ s.hist) ∧ ¬ Once (executions 1 s.hist) := by
  refine ⟨Sys.run batchParams (batchRun [true, false]) (Sys.init batchParams (.ofList [1])),
    .of_run batchParams .init (by decide +kernel), fun n i cp hm => ?_, by decide +kernel⟩
  have hall : (Sys.run batchParams (batchRun [true, false]) (Sys.init batchParams (.ofList [1]))).hist.all notRestart = true := by
    decide +kernel
  exact absurd (List.all_eq_true.mp hall _ hm) Bool.false_ne_true

end PhxPaxos
