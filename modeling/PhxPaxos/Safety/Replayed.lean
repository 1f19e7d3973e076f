import PhxPaxos.Recovery.Replayer
import PhxPaxos.Safety.Executed

/-!
# The checkpoints of the group

Each node has a replayer that makes its checkpoint from its own log. Where the logs hold the values that were learned, all
checkpoints are made of these values: two replayers that have executed the same instance made the same calls
(`replays_agree`).
-/

namespace PhxPaxos

variable {P : Params} {G : Group} {D : Deliver} {values : Nat → Bytes} {s : Sys} {g : ReplayGroup}

/-- No node has chosen beyond its instance. -/
theorem Reachable.maxChosen_le (hs : Reachable P D G s) (n : NodeID) :
    (s.node n).checkpointMgr.maxChosenInstanceID ≤ (s.node n).instanceID := by
  apply hs.stepping.forall_loc (fun _ => True) (I := fun _ l => l.core.maxChosenInstanceID ≤ l.core.instanceID)
  · exact fun _ _ => trivial
  · exact fun _ => le_rfl
  · intro s n l _ _ hI hact
    exact hact.maxChosen_le (hI n)
  · intro s n l k _ _ hI _ _
    exact hI k
  · trivial

/-- The chain of steps of a node at an event, unless it is started. -/
theorem Reachable.chain (hs : Reachable P D G s) {e : Event} (hcan : e.CanHappen D s) (hkind : ∀ cp, e.kind ≠ .restart cp) :
    Chain P (D.Can s.net e.node) e.node ((s.proc e.node e.env).loc none)
      ((handle P e.kind (s.proc e.node e.env)).loc none) := by
  have hready := hs.stepping.ready e.node
  apply handle_chain (w := s.proc e.node e.env) hready.me hkind
  · exact fun gid msg hk => ⟨gid, hcan gid msg hk⟩
  · exact hready.retryQueue
  · exact hready.commit

/-- While a process runs, its instance only grows. -/
theorem Reachable.instanceID_le (hs : Reachable P D G s) {e : Event} (hcan : e.CanHappen D s) {n : NodeID}
    (hkind : n = e.node → ∀ cp, e.kind ≠ .restart cp) : (s.node n).instanceID ≤ ((s.step P e).node n).instanceID := by
  by_cases hn : n = e.node
  · subst hn
    have hle := (hs.chain hcan (hkind rfl)).keeps (I := fun l => (s.node e.node).instanceID ≤ l.core.instanceID)
      (fun hl hact hstarts => hl.trans (hact.instanceID_le hstarts)) le_rfl
    have hnode : (s.step P e).node e.node = (handle P e.kind (s.proc e.node e.env)).node := Function.update_self ..
    rw [hnode]
    exact hle
  · have hnode : (s.step P e).node n = s.node n := Function.update_of_ne hn ..
    rw [hnode]

theorem Reachable.hist_suffix (hs : Reachable P D G s) {e : Event} (hcan : e.CanHappen D s) :
    s.hist <:+ (s.step P e).hist := by
  have hready := hs.stepping.ready e.node
  have hacts : Relation.ReflTransGen (Act P (D.Can s.net e.node) e.node) ((s.proc e.node e.env).loc none)
      ((handle P e.kind (s.proc e.node e.env)).loc none) :=
    handle_acts (w := s.proc e.node e.env) hready.me (fun gid msg hk => ⟨gid, hcan gid msg hk⟩) hready.retryQueue hready.commit
  obtain ⟨obs, hh, -⟩ := acts_obs hacts
  exact ⟨obs, hh.symm⟩

namespace ReplayGroup

@[simp] theorem setReplayer_self (g : ReplayGroup) (n : NodeID) (r : Replayer) : (g.setReplayer n r).replayer n = r :=
  Function.update_self ..

theorem setReplayer_ne (g : ReplayGroup) {n k : NodeID} (h : k ≠ n) (r : Replayer) :
    (g.setReplayer n r).replayer k = g.replayer k :=
  Function.update_of_ne h ..

/-- The group goes on as it does without replayers. -/
theorem step_event_sys (g : ReplayGroup) (e : Event) : (g.step P (.event e)).sys = g.sys.step P e := by
  unfold step
  simp only []
  split <;> rfl

theorem step_event_replayer (g : ReplayGroup) (e : Event) (n : NodeID) :
    (n = e.node ∧ (∃ cp, e.kind = .restart cp) ∧ (g.step P (.event e)).replayer n = {}) ∨
      ((n = e.node → ∀ cp, e.kind ≠ .restart cp) ∧ (g.step P (.event e)).replayer n = g.replayer n) := by
  by_cases hrestart : ∃ cp, e.kind = .restart cp
  · obtain ⟨cp, hcp⟩ := hrestart
    have hstep : g.step P (.event e) = ({ g with sys := g.sys.step P e } : ReplayGroup).setReplayer e.node {} := by
      unfold step
      simp only [hcp]
    rw [hstep]
    by_cases hn : n = e.node
    · subst hn
      exact Or.inl ⟨rfl, ⟨cp, hcp⟩, setReplayer_self _ _ _⟩
    · exact Or.inr ⟨fun heq => absurd heq hn, setReplayer_ne _ hn _⟩
  · right
    refine ⟨fun _ cp heq => hrestart ⟨cp, heq⟩, ?_⟩
    unfold step
    simp only []
    split
    · rename_i cp heq
      exact absurd ⟨cp, heq⟩ hrestart
    · rfl

end ReplayGroup

theorem ReplayReachable.reachable (hg : ReplayReachable P D G g) : Reachable P D G g.sys := by
  induction hg with
  | init => exact .init
  | @step g e _ hcan ih =>
    cases e with
    | event e =>
      rw [ReplayGroup.step_event_sys]
      exact ih.step e (hcan e rfl)
    | replay n start answers =>
      unfold ReplayGroup.step
      simp only []
      split
      · exact ih
      · exact ih
    | flags => exact ih

/-- Every replayer has played values of the run, in instances that its node has passed. -/
theorem ReplayReachable.played (hg : ReplayReachable P inNetwork G g) (hc : Consistent values g.sys.hist) (n : NodeID) :
    (g.replayer n).Played P (g.sys.node n).instanceID fun i value => value = values i := by
  induction hg with
  | init => exact .new
  | @step g e hg hcan ih =>
    cases e with
    | event e =>
      have hs := hg.reachable
      rw [ReplayGroup.step_event_sys] at hc ⊢
      have hold := ih (hc.suffix (hs.hist_suffix (hcan e rfl)))
      rcases g.step_event_replayer (P := P) e n with ⟨-, -, hnew⟩ | ⟨hkind, hsame⟩
      · rw [hnew]
        exact .new
      · rw [hsame]
        exact hold.mono (hs.instanceID_le (hcan e rfl) hkind) fun _ _ _ heq => heq
    | replay k start answers =>
      unfold ReplayGroup.step at hc ⊢
      simp only [] at hc ⊢
      split at hc
      · rw [if_pos ‹_›]
        exact ih hc
      · rw [if_neg ‹_›]
        by_cases hn : n = k
        · subst hn
          rw [ReplayGroup.setReplayer_self]
          have hs := hg.reachable
          refine (ih hc).step (hs.maxChosen_le n) (fun i r hlt hr => ?_) answers
          exact ((hs.fitting hc).log n i r hlt hr).value
        · rw [ReplayGroup.setReplayer_ne _ hn]
          exact ih hc
    | flags k canrun isPaused =>
      by_cases hn : n = k
      · subst hn
        change (((g.setReplayer n _).replayer n).Played P _ _)
        rw [ReplayGroup.setReplayer_self]
        exact (ih hc).flags canrun isPaused
      · change (((g.setReplayer k _).replayer n).Played P _ _)
        rw [ReplayGroup.setReplayer_ne _ hn]
        exact ih hc

/-- **All checkpoints are made of the same values**: when no write of the acceptor and no execution fails and all nodes learn
the same values, then every replayer of the group plays these values, one instance after the other, and the calls of any
two replayers for one instance are the same. -/
theorem replays_agree (hg : ReplayReachable P inNetwork G g) (hputs : PutsSucceed g.sys.hist)
    (hexecutes : ExecutesSucceed g.sys.hist)
    (hlearned : ∀ {n i v how}, .learn n i v how ∈ g.sys.hist → v = values i ∧ v ≠ []) (hcleared : LoadsCleared g.sys.hist)
    (n : NodeID) :
    (∃ first k, applied ((g.replayer n).played.map CheckpointExecution.toExecution) = List.range' first k ∧
      first + k = (g.replayer n).instanceID) ∧
    ∀ e ∈ (g.replayer n).played, e.instanceID < (g.sys.node n).instanceID ∧ e.value = values e.instanceID ∧
      ∀ m, ∀ e' ∈ (g.replayer m).played, e'.instanceID = e.instanceID → e.ok = true → e'.ok = true →
        e.calls.map SMCall.sub = e'.calls.map SMCall.sub := by
  have hc : Consistent values g.sys.hist :=
    ⟨hputs, hlearned, keepsLearned_of_executes hg.reachable hexecutes, hcleared⟩
  have hplayed := hg.played hc n
  refine ⟨hplayed.order, fun e he => ?_⟩
  obtain ⟨hlt, hvalue, hcalls⟩ := hplayed.played e he
  refine ⟨hlt, hvalue, fun m e' he' hsame hok hok' => ?_⟩
  obtain ⟨-, hvalue', hcalls'⟩ := (hg.played hc m).played e' he'
  rw [hok, hvalue] at hcalls
  rw [hok', hvalue', hsame] at hcalls'
  exact hcalls.same hcalls'

namespace ReplayGroup

def run (P : Params) (es : List ReplayGroupEvent) (g : ReplayGroup) : ReplayGroup := es.foldl (fun g e => g.step P e) g

/-- Each message that arrives was sent there. -/
def canRun (P : Params) : List ReplayGroupEvent → ReplayGroup → Bool
  | [], _ => true
  | .event e :: es, g => g.sys.canHappen e && canRun P es (g.step P (.event e))
  | e :: es, g => canRun P es (g.step P e)

end ReplayGroup

theorem ReplayReachable.of_run {es : List ReplayGroupEvent} : ∀ {g : ReplayGroup}, ReplayReachable P inNetwork G g →
    g.canRun P es = true → ReplayReachable P inNetwork G (g.run P es) := by
  induction es with
  | nil => exact fun hg _ => hg
  | cons e es ih =>
    intro g hg hcan
    cases e with
    | event e =>
      simp only [ReplayGroup.canRun, Bool.and_eq_true] at hcan
      refine ih (hg.step (.event e) fun e' heq => ?_) hcan.2
      cases heq
      exact Sys.canHappen_sound hcan.1
    | replay => exact ih (hg.step _ fun _ heq => by cases heq) hcan
    | flags => exact ih (hg.step _ fun _ heq => by cases heq) hcan

/-- Node 1 proposes a value for the state machine `smid`. -/
def proposeForSM (callID : Nat) (v : Bytes) (smid : Nat) : List Event :=
  [⟨1, .newValueGetID callID v smid, {}⟩, ⟨1, .lock callID, {}⟩, ⟨1, .checkNewValue, {}⟩]

/-- The values of the instances 0 and 1. -/
def replayedValue (i : Nat) : Bytes := if i = 0 then packPaxosValue [7] 1 else packPaxosValue [8] 2

/-- Node 1 gets them chosen with node 2, which learns them; 2768625435 is the checksum of the first. -/
def twoValuesRun : List Event :=
  proposeForSM 0 [7] 1 ++
  [deliver 2 (prepareMsg 1 0 1), deliver 1 (promiseMsg 2 0 1 {}), deliver 2 (acceptMsg 1 0 1 (replayedValue 0) 0),
    deliver 1 (replyMsg 2 .paxosAcceptReply 0 1 0), deliver 2 (successMsg 1 0 1 0), ⟨1, .getResult 0, {}⟩] ++
  proposeForSM 1 [8] 2 ++
  [deliver 2 (acceptMsg 1 1 1 (replayedValue 1) 2768625435), deliver 1 (replyMsg 2 .paxosAcceptReply 1 1 0),
    deliver 2 (successMsg 1 1 1 2768625435)]

/-- Then the replayers of the nodes 1 and 2 are told to go on, and the first execution of node 2 fails. -/
def replayRun : List ReplayGroupEvent :=
  twoValuesRun.map .event ++ (.flags 1 true false :: List.replicate 9 (.replay 1 0 [])) ++
    (.flags 2 true false :: List.replicate 4 (.replay 2 0 [])) ++ (.replay 2 0 [false] :: List.replicate 9 (.replay 2 0 []))

def replayedGroup : ReplayGroup := ReplayGroup.run twoSMs replayRun { sys := Sys.init twoSMs (.ofList [1, 2, 3]) }

theorem replays_agree_replayRun :
    (replayedGroup.replayer 1).played =
      [⟨⟨0, true, [⟨0, 1, [7], true⟩]⟩, replayedValue 0⟩, ⟨⟨1, true, [⟨0, 2, [8], true⟩]⟩, replayedValue 1⟩] ∧
    (replayedGroup.replayer 2).played.map (fun e => (e.instanceID, e.ok)) = [(0, false), (0, true), (1, true)] ∧
    ∀ e ∈ (replayedGroup.replayer 2).played, e.value = replayedValue e.instanceID ∧
      ∀ e' ∈ (replayedGroup.replayer 1).played, e'.instanceID = e.instanceID → e.ok = true → e'.ok = true →
        e.calls.map SMCall.sub = e'.calls.map SMCall.sub := by
  refine ⟨by decide +kernel, by decide +kernel, fun e he => ?_⟩
  have hall : pastAll (Obs.isConsistent replayedValue) replayedGroup.sys.hist = true := by decide +kernel
  obtain ⟨hputs, hexecutes, hlearned, hcleared⟩ := conditions_of_pastAll _ hall
  have hg : ReplayReachable twoSMs inNetwork (.ofList [1, 2, 3]) replayedGroup := .of_run .init (by decide +kernel)
  obtain ⟨-, hvalue, hcalls⟩ := (replays_agree hg hputs hexecutes hlearned hcleared 2).2 e he
  exact ⟨hvalue, fun e' => hcalls 1 e'⟩

end PhxPaxos
