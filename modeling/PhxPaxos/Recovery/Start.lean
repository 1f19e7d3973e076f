import PhxPaxos.Recovery.Readable

/-!
# A node starts again

`Instance::Init` relates the largest record of the log, the stored min-chosen instance id and the checkpoint of the state
machines, which the learner, the cleaner and the state machines change on their own. In the runs of `StartRun` these fit
at every point, so that a start fails only when a write or an execution fails (`starts_again`): it finds every record that
it has to replay, and comes back to the instance of the process before, or to the one before that.
-/

namespace PhxPaxos

variable {P : Params}

/-! ## Why a start fails -/

/-- Where all records are there, the replay ends with an execution that failed, if it fails. -/
theorem playLog_fails (k : Nat) : ∀ (i : Nat) (w : Proc), (∀ j, i ≤ j → j < i + k → (w.readState j).isSome = true) →
    (playLog P k i w).2 ≠ 0 → ∃ e, (playLog P k i w).1.played.getLast? = some e ∧ e.ok = false := by
  induction k with
  | zero => exact fun i w _ hret => absurd rfl hret
  | succ k ih =>
    intro i w hrecords
    obtain ⟨r, hr⟩ := Option.isSome_iff_exists.mp (hrecords i le_rfl (by omega))
    have hexecuted : Executes P (fun _ => True) w.me { w with smCalls := [] }
        (smExecute P i r.acceptedValue { w with smCalls := [] }).1 := smExecute_executes (w := { w with smCalls := [] }) rfl i _
    obtain ⟨vsm, stored, hnode, -⟩ := hexecuted.only
    unfold playLog
    simp only [hr]
    generalize smExecute P i r.acceptedValue { w with smCalls := [] } = res at hnode ⊢
    obtain ⟨w', ok⟩ := res
    simp only at hnode ⊢
    cases ok with
    | false =>
      intro _
      exact ⟨⟨i, false, w'.smCalls⟩, List.getLast?_concat, rfl⟩
    | true =>
      simp only [if_true]
      apply ih
      intro j hj hlt
      have hread : (w.readState j).isSome = true := hrecords j (by omega) (by omega)
      unfold Proc.readState at hread ⊢
      rw [hnode]
      exact hread

/-- `CheckpointMgr::Init` fails only when its write does. -/
theorem checkpointMgr_init_fails {cp : Nat} {w : Proc} (hret : (CheckpointMgr.init cp w).2 ≠ 0) :
    w.env.puts.headD true = false := by
  revert hret
  unfold CheckpointMgr.init
  simp only []
  split
  · unfold setMinChosenInstanceID Proc.nextPut
    cases w.env.puts.headD true with
    | true => exact fun hret => absurd rfl hret
    | false => exact fun _ => rfl
  · exact fun hret => absurd rfl hret

/-- The log reaches from the checkpoint to the instance that `Instance::Init` comes back to. -/
structure LogStorage.Replayable (s : LogStorage) (cp : Nat) : Prop where
  le : cp ≤ (Acceptor.init s).1 + 1
  fixed : s.fixed cp ≤ cp
  records : ∀ j, cp ≤ j → j < (Acceptor.init s).1 → (s.get j).isSome = true

/-- Then `Instance::Init` fails only when the write of the minimum or an execution does. -/
theorem instanceInit_fails {cp : Nat} {w : Proc} (hs : w.node.storage.Replayable cp) (hret : (instanceInit P cp w).2 ≠ 0) :
    w.env.puts.headD true = false ∨ ∃ e, (instanceInit P cp w).1.played.getLast? = some e ∧ e.ok = false := by
  generalize hw : ({ w with
    node.instanceID := (Acceptor.init w.node.storage).1, node.acceptor := (Acceptor.init w.node.storage).2 } : Proc) = w₀
  have hid : w₀.node.instanceID = (Acceptor.init w.node.storage).1 := by rw [← hw]
  have hstorage : w₀.node.storage = w.node.storage := by rw [← hw]
  by_cases h₁ : (CheckpointMgr.init cp w₀).2 = 0
  · right
    obtain ⟨hrecords, hmgr⟩ := checkpointMgr_init_minimum cp w₀
    obtain ⟨-, -, hcached⟩ := hmgr.resolve_right fun h => h.1 h₁
    obtain ⟨mgr, minChosen, env, hinit⟩ := checkpointMgr_init_eq cp w₀
    have hid₁ : (CheckpointMgr.init cp w₀).1.node.instanceID = (Acceptor.init w.node.storage).1 := by rw [hinit, ← hid]
    have heq : instanceInit P cp w = initNowInstanceID P cp (CheckpointMgr.init cp w₀).1 := by
      revert hret
      unfold instanceInit
      simp only [hw]
      rw [if_neg (not_not.mpr h₁)]
      split
      · exact fun _ => rfl
      · exact fun h => absurd rfl h
    rw [heq] at hret ⊢
    rw [hstorage] at hrecords hcached
    generalize (CheckpointMgr.init cp w₀).1 = w₁ at hrecords hcached hid₁ hret ⊢
    unfold initNowInstanceID at hret ⊢
    split
    case isTrue hlt =>
      rw [if_pos hlt] at hret
      have hmin : ¬ cp < w₁.node.checkpointMgr.minChosenInstanceID := by
        rw [hcached]
        exact Nat.not_lt.mpr hs.fixed
      rw [if_neg hmin] at hret ⊢
      refine playLog_fails _ _ _ (fun j hj hjlt => ?_) hret
      unfold Proc.readState LogStorage.get
      rw [hrecords]
      exact hs.records j hj (by omega)
    case isFalse hge =>
      exfalso
      rw [if_neg hge] at hret
      have hlogic : protectionLogic cp w₁.node.instanceID w₁ = (w₁, 0) := if_pos (by rw [hid₁]; exact hs.le)
      split at hret
      · rw [hlogic] at hret
        exact hret rfl
      · exact hret rfl
  · left
    have hput := checkpointMgr_init_fails h₁
    rw [← hw] at hput
    exact hput

/-- Whatever comes of it, `Instance::Init` replays from the checkpoint on. -/
theorem instanceInit_playedFrom {cp : Nat} {w : Proc} (hw : w.played = []) :
    PlayedFrom cp (instanceInit P cp w).1.played := by
  obtain ⟨mgr, minChosen, env, hinit⟩ := checkpointMgr_init_eq cp { w with
    node.instanceID := (Acceptor.init w.node.storage).1, node.acceptor := (Acceptor.init w.node.storage).2 }
  by_cases hret : (instanceInit P cp w).2 = 0
  · exact (instanceInit_played hw hret).1
  · revert hret
    unfold instanceInit
    simp only []
    generalize CheckpointMgr.init cp _ = r at hinit ⊢
    obtain ⟨w₁, ret₁⟩ := r
    simp only at hinit ⊢
    have hnothing : w₁.played = [] := by
      rw [hinit]
      exact hw
    split
    · intro _
      rw [hnothing]
      exact ⟨rfl, by simp, by simp⟩
    · split
      · exact fun _ => (initNowInstanceID_played (P := P) cp w₁ hnothing).1
      · exact fun hret => absurd rfl hret

/-- A process that `Instance::Init` has set up runs. -/
theorem instanceInit_stopped {cp : Nat} {w : Proc} (hret : (instanceInit P cp w).2 = 0) :
    (instanceInit P cp w).1.node.stopped = w.node.stopped := by
  obtain ⟨w₁, w₂, h₁, h₂, he⟩ := instanceInit_eq hret
  obtain ⟨timers, now, k, checksum, hend⟩ := initEnd_eq { w₂ with
    node.proposer.state.proposalID := w₂.node.acceptor.promiseBallot.proposalID + 1
    node.checkpointMgr.maxChosenInstanceID := w₂.node.instanceID }
  obtain ⟨mgr, minChosen, env, hmgr⟩ := checkpointMgr_init_eq cp { w with
    node.instanceID := (Acceptor.init w.node.storage).1, node.acceptor := (Acceptor.init w.node.storage).2 }
  obtain ⟨⟨vsm, stored, mgr', minChosen', i', a', hnode⟩, -, -, -⟩ := initNowInstanceID_starts (P := P) (w := w₁) rfl cp
  rw [h₁] at hmgr
  rw [h₂, show w₁ = _ from hmgr] at hnode
  rw [he, hend]
  simp only at hnode ⊢
  rw [hnode]

/-- What a start does on a log that reaches from the checkpoint to its end. -/
theorem restart_spec {cp : Nat} {w : Proc} (hs : w.node.storage.Replayable cp) : ∃ played ok older,
    (restart P cp w).hist = .playLog w.me played ok :: older ∧ PlayedFrom cp played ∧
      (restart P cp w).node.stopped = !ok ∧
      (ok = true → (∀ e ∈ played, e.ok = true) ∧ cp + played.length = (restart P cp w).node.instanceID ∧
        (restart P cp w).node.instanceID = max cp (Acceptor.init w.node.storage).1) ∧
      (ok = false → w.env.puts.headD true = false ∨ ∃ e, played.getLast? = some e ∧ e.ok = false) := by
  unfold restart
  simp only []
  generalize hw : ({ w.log (.restart w.me w.node.instanceID cp) with
    node := Node.new w.node.config w.node.storage
    played := [] } : Proc) = w'
  have hstorage : w'.node.storage = w.node.storage := by rw [← hw]; rfl
  have hnothing : w'.played = [] := by rw [← hw]
  have henv : w'.env = w.env := by rw [← hw]; rfl
  by_cases hret : (instanceInit P cp w').2 = 0
  · rw [if_neg (not_not.mpr hret)]
    obtain ⟨hplayed, hlen, hall⟩ := instanceInit_played hnothing hret
    have hlog := instanceInit_startLog (by rw [hstorage]; exact hs.le) (by rw [← hw]; rfl) hnothing hret
    rw [hstorage] at hlog
    refine ⟨_, true, _, rfl, hplayed, ?_, fun _ => ⟨hall, hlen, hlog.instanceID⟩, fun hfalse => by cases hfalse⟩
    refine (instanceInit_stopped hret).trans ?_
    rw [← hw]
    rfl
  · rw [if_pos hret]
    have hfail := instanceInit_fails (hstorage ▸ hs) hret
    rw [henv] at hfail
    refine ⟨_, false, _, rfl, ?_, rfl, (fun htrue => by cases htrue), fun _ => hfail⟩
    exact instanceInit_playedFrom hnothing

/-! ## Hosts -/

/-- A start comes back to the instance of the process before, or to the one before that. -/
theorem Trimmed.back {d n start : Nat} {s : LogStorage} {cleaned : List (Nat × Nat)} (ht : Trimmed d s n start cleaned)
    (hle : ∀ x ∈ s.records, x.1 ≤ n) : n ≤ max start (Acceptor.init s).1 + 1 ∧ max start (Acceptor.init s).1 ≤ n := by
  have hmax : (Acceptor.init s).1 ≤ n := Acceptor.init_le hle
  refine ⟨?_, max_le ht.start_le hmax⟩
  rcases Nat.eq_zero_or_pos n with hzero | hpos
  · omega
  · obtain ⟨i, hn, -, hsome⟩ := ht.last hpos
    obtain ⟨hi, -⟩ := Acceptor.init_max hsome
    omega

namespace Host

/-- The states that the host reaches from a complete log that reaches down to the checkpoint. -/
inductive StartRun (P : Params) : Host → Prop
  | init {h} : h.Complete → h.node.storage.minimum ≤ SMFac.start h.sms → StartRun P h
  | step {h e} : StartRun P h → h.Regular P e → StartRun P (h.step P e)

variable {h : Host} {b : Bool} {d : Nat}

/-- No step moves the stored minimum past the first record. -/
theorem Tracked.minimum_le (hk : h.Tracked b d) (hi : h.InStep) {e : HostEvent} (hr : h.Regular P e) :
    (h.step P e).node.storage.minimum ≤ d := by
  cases e with
  | work kind env => exact (hk.work hi hr.log).log.stored_le
  | checkpoint smid id => exact hk.log.stored_le
  | setHoldPaxosLogCount holdCount => exact hk.log.stored_le
  | start env => exact (hk.restart env).log.stored_le
  | clean env =>
    have hle := hk.log.stored_le
    cases hrun : h.node.stopped with
    | true =>
      rw [show h.step P (.clean env) = h from if_pos hrun]
      exact hle
    | false =>
      rw [show h.step P (.clean env) = h.clean env from if_neg (by rw [hrun]; exact Bool.false_ne_true)]
      have htracks := (hk.cleaner hrun).pc
      unfold Host.clean
      cases hpc : h.cleaner.pc with
      | sleep | readMin | readCP => exact hle
      | loop i cp maxChosen =>
        simp only []
        split
        · split <;> exact hle
        · exact hle
      | deleted i cp maxChosen =>
        rw [hpc] at htracks
        obtain ⟨-, hd, -⟩ := htracks
        have hnext : add64 i 1 ≤ i + 1 := Nat.mod_le _ _
        simp only []
        split
        · unfold setMinChosenInstanceID
          simp only []
          split
          · simp only [ne_eq, not_true_eq_false, if_false]
            change add64 i 1 ≤ d
            omega
          · exact hle
        · exact hle

/-- The checkpoint only grows. -/
theorem start_le_step (h : Host) (e : HostEvent) : SMFac.start h.sms ≤ SMFac.start (h.step P e).sms := by
  cases e with
  | checkpoint smid id => exact start_le_raise smid id h.sms
  | work kind env =>
    rcases work_cases (P := P) h kind env with heq | ⟨-, -, heq⟩
    · rw [heq]
    · rw [heq]
  | clean env =>
    change _ ≤ SMFac.start (if h.node.stopped then h else h.clean env).sms
    split
    · exact le_rfl
    · rw [(clean_sms h env).1]
  | _ => exact le_rfl

/-- What was deleted is below the checkpoint, so the first record is there or above the stored minimum. -/
theorem Tracked.first_le (hk : h.Tracked b d) (hmin : h.node.storage.minimum ≤ SMFac.start h.sms) : d ≤ SMFac.start h.sms := by
  rcases hk.log.stored_le.eq_or_lt with heq | hlt
  · exact heq ▸ hmin
  · obtain ⟨x, hx, hxd⟩ := hk.log.frontier hlt
    have hcovered := hk.log.covered x hx
    omega

theorem StartRun.tracked (hr : StartRun P h) : h.InStep ∧ ∃ b d, h.Tracked b d ∧ d ≤ SMFac.start h.sms := by
  induction hr with
  | init hc hmin =>
    have hrun : Run P (fun _ _ => True) _ := .init hc.stopped hc.cleaner hc.cleaned
    exact ⟨hrun.inStep, true, _, hc.tracked, hmin⟩
  | @step h e _ hregular ih =>
    obtain ⟨hi, b, d, hk, hd⟩ := ih
    obtain ⟨d', hk'⟩ := hk.step hi hregular
    refine ⟨hi.step e, _, d', hk', hk'.first_le ?_⟩
    calc (h.step P e).node.storage.minimum ≤ d := hk.minimum_le hi hregular
      _ ≤ SMFac.start h.sms := hd
      _ ≤ SMFac.start (h.step P e).sms := start_le_step h e

theorem Tracked.replayable (hk : h.Tracked b d) (hd : d ≤ SMFac.start h.sms) :
    h.node.storage.Replayable (SMFac.start h.sms) := by
  obtain ⟨-, hfixed, -, -⟩ := hk.log.fixed
  obtain ⟨hcp, hplace⟩ := hk.log.place hk.written.le
  refine ⟨hcp, hfixed.trans hd, fun j hj hlt => ?_⟩
  refine (hplace.kept j (hk.log.stored_le.trans (hd.trans hj)) (hlt.trans_le (le_max_right _ _))).mpr (hd.trans hj)

/-- **A node can always start again**: whatever the node, its state machines and its cleaner have done, and wherever the
process was killed, the next start replays every instance from the checkpoint to the one it comes back to, which is that
of the process before or the one before that, and each of them is in the log; it fails only when the write of the minimum
or an execution fails. -/
theorem starts_again (hr : StartRun P h) (env : Env) : ∃ played ok older,
    (h.step P (.start env)).hist = .playLog h.node.config.myNodeID played ok :: older ∧
      PlayedFrom (SMFac.start h.sms) played ∧ (h.step P (.start env)).node.stopped = !ok ∧
      (ok = true → (∀ e ∈ played, e.ok = true) ∧
        SMFac.start h.sms + played.length = (h.step P (.start env)).node.instanceID ∧
        h.node.instanceID ≤ (h.step P (.start env)).node.instanceID + 1 ∧
        (h.step P (.start env)).node.instanceID ≤ h.node.instanceID) ∧
      (ok = false → env.puts.headD true = false ∨ ∃ e, played.getLast? = some e ∧ e.ok = false) := by
  obtain ⟨-, b, d, hk, hd⟩ := hr.tracked
  have hs := hk.replayable hd
  have hback := hk.log.back hk.written.le
  have hstep : h.step P (.start env) =
      { h with
        node := (restart P (SMFac.start h.sms) (h.proc env)).node
        hist := (restart P (SMFac.start h.sms) (h.proc env)).hist
        cleaner := {} } := rfl
  rw [hstep]
  generalize SMFac.start h.sms = cp at hs hback ⊢
  obtain ⟨played, ok, older, hhist, hplayed, hstopped, hup, hfail⟩ := restart_spec (P := P) (w := h.proc env) hs
  refine ⟨played, ok, older, hhist, hplayed, hstopped, fun hok => ?_, hfail⟩
  obtain ⟨hall, hlen, hid⟩ := hup hok
  refine ⟨hall, hlen, ?_, ?_⟩
  · exact hid ▸ hback.1
  · exact hid ▸ hback.2

theorem StartRun.of_events {es : List HostEvent} : ∀ {h : Host}, StartRun P h → h.runRegular P es = true →
    StartRun P (h.run P es) := by
  induction es with
  | nil => exact fun hr _ => hr
  | cons e es ih =>
    intro h hr hes
    simp only [runRegular, Bool.and_eq_true] at hes
    exact ih (hr.step (regular_sound hes.1)) hes.2

/-- The host of `fullHost` is killed while its cleaner is at work, and started again. -/
theorem starts_again_cleaned : ∃ played older,
    ((fullHost.run twoSMs cleanEvents).step twoSMs (.start {})).hist = .playLog 1 played true :: older ∧
      302 + played.length = ((fullHost.run twoSMs cleanEvents).step twoSMs (.start {})).node.instanceID := by
  have hr : StartRun twoSMs (fullHost.run twoSMs cleanEvents) :=
    .of_events (.init fullHost_complete (by decide +kernel)) (by decide +kernel)
  obtain ⟨played, ok, older, hhist, -, hstopped, hup, -⟩ := starts_again hr {}
  have hruns : ((fullHost.run twoSMs cleanEvents).step twoSMs (.start {})).node.stopped = false := by decide +kernel
  have hok : ok = true := by
    rw [hruns] at hstopped
    simpa using hstopped.symm
  have hstart : SMFac.start (fullHost.run twoSMs cleanEvents).sms = 302 := by decide +kernel
  have hme : (fullHost.run twoSMs cleanEvents).node.config.myNodeID = 1 := by decide +kernel
  rw [hok, hme] at hhist
  obtain ⟨-, hlen, -⟩ := hup hok
  rw [hstart] at hlen
  exact ⟨played, older, hhist, hlen⟩

end Host

end PhxPaxos
