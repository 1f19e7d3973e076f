import PhxPaxos.Abstract.Files
import PhxPaxos.Recovery.KeptLog

/-!
# What a node reports as available

`Cleaner::DeleteOne` deletes an instance and sets the min-chosen instance id in memory to just this instance; only every
`DELETE_SAVE_INTERVAL` deletions does it save the next one. So the range that `Node::GetMinChosenInstanceID` reports can be
read exactly when nothing was deleted since the last save, or since a start that repaired the minimum
(`readable_iff_saved`). From the second instance after the minimum on it can always be read.
-/

namespace PhxPaxos

namespace Host

variable {P : Params}

/-! ## The runs -/

/-- `Node::GetMinChosenInstanceID` -/
def getMinChosenInstanceID (h : Host) : Nat := h.node.checkpointMgr.minChosenInstanceID

/-- Every instance that the node reports as available has its record. -/
def Readable (h : Host) : Prop :=
  ∀ i, h.getMinChosenInstanceID ≤ i → i < h.node.instanceID → (h.node.storage.get i).isSome = true

/-- A stopped process whose log has a record for every instance from the stored minimum to its own. -/
structure Complete (h : Host) : Prop where
  stopped : h.node.stopped = true
  cleaner : h.cleaner = {}
  cleaned : h.cleaned = []
  written : (h.node.core none).Written
  start : SMFac.start h.sms ≤ h.node.instanceID
  stored : h.node.storage.minimum < h.node.instanceID ∨ h.node.storage.minimum = 0 ∧ h.node.instanceID = 0
  log : ∀ i, h.node.storage.minimum ≤ i → i < h.node.instanceID → (h.node.storage.get i).isSome = true

/-- The acceptor writes of the step succeed, no checkpoint of another node is loaded, the sums of the cleaner do not wrap,
and a checkpoint is one of instances that the node has passed. -/
structure Regular (P : Params) (h : Host) (e : HostEvent) : Prop where
  log : LogKept h.node.config.myNodeID (h.step P e).hist
  sums : ∀ i cp, h.Deletes e i cp → i + h.cleaner.holdCount < 2 ^ 64
  checkpoint : ∀ smid id, e = .checkpoint smid id → nextInstance id ≤ h.node.instanceID

/-- Whether the minimum is up to date after the step, by the branches that the step takes: deleting makes it late, a
successful `SetMinChosenInstanceID` of `DeleteOne` brings it up to date, and a start does when its probing reaches all
that was deleted. -/
def saved (b : Bool) (e : HostEvent) (h : Host) : Bool :=
  match e with
  | .clean env =>
    if h.node.stopped then b
    else match h.cleaner.pc with
      | .loop instanceID cpInstanceID maxChosenInstanceID =>
        if add64 instanceID h.cleaner.holdCount < cpInstanceID ∧
            add64 instanceID h.cleaner.holdCount < maxChosenInstanceID then b && !env.puts.headD true
        else b
      | .deleted instanceID _ _ =>
        decide (instanceID ≥ add64 h.cleaner.lastSave deleteSaveInterval) && env.puts.headD true
      | _ => b
  | .start _ => decide (∀ x ∈ h.cleaned, x.1 < h.node.storage.minimum + deleteSaveInterval)
  | _ => b

/-- The states that the host reaches, with whether the minimum is up to date. -/
inductive SavedRun (P : Params) : Bool → Host → Prop
  | init {h} : h.Complete → SavedRun P true h
  | step {b h e} : SavedRun P b h → h.Regular P e → SavedRun P (h.saved b e) (h.step P e)

end Host

/-! ## The log -/

/-- The records from the stored minimum to `d` are deleted, those from `d` on are there, up to instance `n`. -/
structure Trimmed (d : Nat) (s : LogStorage) (n start : Nat) (cleaned : List (Nat × Nat)) : Prop where
  stored_le : s.minimum ≤ d
  le : d ≤ n
  kept : ∀ i, s.minimum ≤ i → i < n → ((s.get i).isSome = true ↔ d ≤ i)
  /-- A record at the instance of the process or just before, by which the next start finds its place. -/
  last : 0 < n → ∃ i, n ≤ i + 1 ∧ d ≤ i ∧ (s.get i).isSome = true
  cleaned_lt : ∀ x ∈ cleaned, x.1 < d
  frontier : s.minimum < d → ∃ x ∈ cleaned, x.1 + 1 = d
  /-- The probing of a start passes over all that was deleted, but for one instance of the first hundred and one. -/
  window : d ≤ s.minimum + deleteSaveInterval ∨ s.minimum = 0 ∧ d ≤ deleteSaveInterval + 1
  start_le : start ≤ n
  covered : ∀ x ∈ cleaned, x.1 + 300 < start

theorem LogStorage.get_del (s : LogStorage) (i j : Nat) : (s.del i).get j = if j = i then none else s.get j :=
  Files.lookup_remove s.records (fun k => k = i) j

theorem deleteSaveInterval_eq : deleteSaveInterval = 100 := rfl

namespace Trimmed

variable {d n start : Nat} {s s' : LogStorage} {cleaned : List (Nat × Nat)}

/-- The log of a running node gets longer. -/
theorem grow (ht : Trimmed d s n start cleaned) {c : Core} (he : Extends n s.records c) (hr : s'.records = c.records)
    (hmin : s'.minimum = s.minimum) : Trimmed d s' c.instanceID start cleaned := by
  refine ⟨hmin ▸ ht.stored_le, ht.le.trans he.le, fun i hle hlt => ?_, fun hpos => ?_, ht.cleaned_lt, ?_, ?_,
    ht.start_le.trans he.le, ht.covered⟩
  · unfold LogStorage.get
    rw [hr]
    rcases Nat.lt_or_ge i n with hold | hnew
    · rw [he.before i hold]
      exact ht.kept i (hmin ▸ hle) hold
    · exact ⟨fun _ => ht.le.trans hnew, fun _ => he.passed i hnew hlt⟩
  · unfold LogStorage.get
    rw [hr]
    rcases he.le.eq_or_lt with heq | hlt
    · obtain ⟨i, hn, hd, hsome⟩ := ht.last (heq ▸ hpos)
      exact ⟨i, heq ▸ hn, hd, he.kept i hsome⟩
    · have hle := ht.le
      exact ⟨c.instanceID - 1, by omega, by omega, he.passed _ (by omega) (by omega)⟩
  · rw [hmin]
    exact ht.frontier
  · rw [hmin]
    exact ht.window

/-- The instance at `d`, or the one before, which is deleted already, is deleted. -/
theorem delete (ht : Trimmed d s n start cleaned) {i hold : Nat} (hge : s.minimum ≤ i) (hle : i ≤ d) (hd : d ≤ i + 1)
    (hcovered : i + 300 < start) (hwindow : i ≤ s.minimum + 99 ∨ s.minimum = 0 ∧ i ≤ 100) :
    Trimmed (i + 1) (s.del i) n start ((i, hold) :: cleaned) := by
  have hn := ht.start_le
  have hother (j : Nat) (hne : j ≠ i) : (s.del i).get j = s.get j := by rw [LogStorage.get_del, if_neg hne]
  have hself : (s.del i).get i = none := by rw [LogStorage.get_del, if_pos rfl]
  have hmin : (s.del i).minimum = s.minimum := rfl
  refine ⟨hge.trans (Nat.le_succ i), by omega, fun j hj hlt => ?_, fun hpos => ?_, ?_, fun _ => ?_, ?_, hn, ?_⟩
  · rcases eq_or_ne j i with rfl | hne
    · rw [hself]
      simp
    · rw [hother j hne, ht.kept j hj hlt]
      omega
  · obtain ⟨j, hj, hdj, hsome⟩ := ht.last hpos
    exact ⟨j, hj, by omega, by rwa [hother j (by omega)]⟩
  · exact List.forall_mem_cons.mpr ⟨Nat.lt_succ_self i, fun x hx => (ht.cleaned_lt x hx).trans_le hd⟩
  · exact ⟨_, List.mem_cons_self, rfl⟩
  · rw [hmin, deleteSaveInterval_eq]
    omega
  · exact List.forall_mem_cons.mpr ⟨hcovered, ht.covered⟩

/-- Only the records and the minimum matter. -/
theorem congr (ht : Trimmed d s n start cleaned) (hr : s'.records = s.records) (hmin : s'.minimum = s.minimum) :
    Trimmed d s' n start cleaned := by
  refine ⟨hmin ▸ ht.stored_le, ht.le, ?_, ?_, ht.cleaned_lt, hmin ▸ ht.frontier, hmin ▸ ht.window, ht.start_le, ht.covered⟩
  · rw [hmin]
    unfold LogStorage.get
    rw [hr]
    exact ht.kept
  · unfold LogStorage.get
    rw [hr]
    exact ht.last

/-- The minimum is saved, at `d` or where the probing of a start has ended. -/
theorem save (ht : Trimmed d s n start cleaned) (hr : s'.records = s.records) (hge : s.minimum ≤ s'.minimum)
    (hle : s'.minimum ≤ d) (hd : d ≤ s'.minimum + 1) : Trimmed d s' n start cleaned := by
  refine ⟨hle, ht.le, fun i hi hlt => ?_, fun hpos => ?_, ht.cleaned_lt, fun hlt => ht.frontier (hge.trans_lt hlt),
    Or.inl (by rw [deleteSaveInterval_eq]; omega), ht.start_le, ht.covered⟩
  · unfold LogStorage.get
    rw [hr]
    exact ht.kept i (hge.trans hi) hlt
  · unfold LogStorage.get
    rw [hr]
    exact ht.last hpos

/-- The probing of a start ends at the first record, but for the one instance that it may not reach. -/
theorem fixed (ht : Trimmed d s n start cleaned) : s.minimum ≤ s.fixed start ∧ s.fixed start ≤ d ∧
    d ≤ s.fixed start + 1 ∧ (s.fixed start = d ↔ d ≤ s.minimum + deleteSaveInterval) := by
  obtain ⟨hge, hle, hpassed, hend⟩ := fixMin_spec s start deleteSaveInterval s.minimum
  change s.minimum ≤ s.fixed start at hge
  change s.fixed start ≤ s.minimum + deleteSaveInterval at hle
  change ∀ j, s.minimum ≤ j → j < s.fixed start → _ at hpassed
  change s.fixed start = _ ∨ start ≤ s.fixed start ∨ (s.get (s.fixed start)).isSome = true at hend
  have hstored := ht.stored_le
  have hn := ht.start_le
  have hd : s.fixed start ≤ d := by
    by_contra hlt
    obtain ⟨hstart, hnone⟩ := hpassed d ht.stored_le (Nat.lt_of_not_le hlt)
    have hsome := (ht.kept d ht.stored_le (by omega)).mpr le_rfl
    rw [hnone] at hsome
    exact absurd hsome Bool.false_ne_true
  have hreach : s.fixed start = s.minimum + deleteSaveInterval ∨ d ≤ s.fixed start := by
    rcases hend with hend | hend | hend
    · exact Or.inl hend
    · -- nothing at or after the checkpoint was deleted
      right
      rcases hstored.eq_or_lt with heq | hlt
      · exact heq ▸ hge
      · obtain ⟨x, hx, hxd⟩ := ht.frontier hlt
        have := ht.covered x hx
        omega
    · right
      rcases Nat.lt_or_ge (s.fixed start) n with hlt | hlt
      · exact (ht.kept _ hge hlt).mp hend
      · exact ht.le.trans hlt
  have hwindow := ht.window
  refine ⟨hge, hd, ?_, ?_⟩
  · omega
  · omega

end Trimmed

/-! ## Where a start finds its place -/

theorem Acceptor.init_le {s : LogStorage} {n : Nat} (h : ∀ x ∈ s.records, x.1 ≤ n) : (Acceptor.init s).1 ≤ n := by
  unfold Acceptor.init LogStorage.getMaxInstanceID
  cases hmax : (s.records.map Prod.fst).max? with
  | none => exact Nat.zero_le _
  | some i =>
    obtain ⟨x, hx, rfl⟩ := List.mem_map.mp (List.max?_eq_some_iff.mp hmax).1
    simp only []
    split <;> exact h x hx

theorem Acceptor.init_max {s : LogStorage} {i : Nat} (h : (s.get i).isSome = true) :
    i ≤ (Acceptor.init s).1 ∧ (s.get (Acceptor.init s).1).isSome = true := by
  obtain ⟨r, hr⟩ := Option.isSome_iff_exists.mp h
  have hle := @Acceptor.init_records_le s.records (i, r) (Files.mem_of_lookup hr)
  rw [← Acceptor.init_records] at hle
  refine ⟨hle, ?_⟩
  unfold Acceptor.init LogStorage.getMaxInstanceID
  cases hmax : (s.records.map Prod.fst).max? with
  | none =>
    rw [List.max?_eq_none_iff, List.map_eq_nil_iff] at hmax
    unfold LogStorage.get at hr
    rw [hmax] at hr
    cases hr
  | some j =>
    obtain ⟨x, hx, rfl⟩ := List.mem_map.mp (List.max?_eq_some_iff.mp hmax).1
    obtain ⟨r', hr'⟩ := Files.lookup_of_mem hx
    have hget : s.get x.1 = some r' := hr'
    simp only [hget]
    rfl

namespace Trimmed

variable {d n start : Nat} {s s' : LogStorage} {cleaned : List (Nat × Nat)}

/-- A start comes back to the instance of the process before, or to the one before that. -/
theorem place (ht : Trimmed d s n start cleaned) (hle : ∀ x ∈ s.records, x.1 ≤ n) :
    start ≤ (Acceptor.init s).1 + 1 ∧ Trimmed d s (max start (Acceptor.init s).1) start cleaned := by
  have hmax : (Acceptor.init s).1 ≤ n := Acceptor.init_le hle
  have hstart := ht.start_le
  have hd := ht.le
  rcases Nat.eq_zero_or_pos n with hzero | hpos
  · have heq : max start (Acceptor.init s).1 = n := by omega
    exact ⟨by omega, heq ▸ ht⟩
  · obtain ⟨i, hn, hdi, hsome⟩ := ht.last hpos
    obtain ⟨hi, hget⟩ := Acceptor.init_max hsome
    refine ⟨by omega, ht.stored_le, by omega, fun j hj hlt => ht.kept j hj (by omega),
      fun _ => ⟨_, by omega, hdi.trans hi, hget⟩, ht.cleaned_lt, ht.frontier, ht.window, le_max_left _ _, ht.covered⟩

end Trimmed

/-! ## The thread of the cleaner -/

/-- Where the cleaner is, against the minimum `m` in memory, the first record `d` and the instance `r` at which it saves:
`b` tells whether `m` is up to date. -/
def CleanerPC.Tracks (b : Bool) (d m r : Nat) : CleanerPC → Prop
  | .sleep => (b = true ↔ m = d) ∧ m ≤ d ∧ d ≤ m + 1
  | .readMin i | .readCP i _ | .loop i _ _ => (b = true ↔ m = d) ∧ m ≤ i ∧ i ≤ d ∧ d ≤ m + 1 ∧ i ≤ r
  | .deleted i _ _ => b = false ∧ d = i + 1 ∧ m ≤ i ∧ i ≤ m + 1 ∧ i ≤ r

/-- The first instance at which `DeleteOne` saves. -/
def Cleaner.saveAt (c : Cleaner) (stored : Nat) : Nat := max (c.lastSave + deleteSaveInterval) stored

/-- The minimum in memory and the cleaner of a running process. -/
structure Cleaner.Tracks (b : Bool) (d m stored : Nat) (c : Cleaner) : Prop where
  le : stored ≤ m
  lastSave : c.lastSave = 0 ∨ c.lastSave + 1 = stored ∧ c.lastSave + 300 < 2 ^ 64
  near : m ≤ c.saveAt stored
  pc : c.pc.Tracks b d m (c.saveAt stored)

namespace Host

variable {P : Params}

/-- The log and, while the process runs, the cleaner. -/
structure Tracked (b : Bool) (d : Nat) (h : Host) : Prop where
  written : (h.node.core none).Written
  log : Trimmed d h.node.storage h.node.instanceID (SMFac.start h.sms) h.cleaned
  cleaner : h.node.stopped = false → h.cleaner.Tracks b d h.getMinChosenInstanceID h.node.storage.minimum

section Clean

variable {h : Host} {b : Bool} {d i cp maxChosen : Nat} {env : Env}

/-- The cleaner goes on without touching the log. -/
theorem Tracked.goTo (hk : h.Tracked b d) (hrun : h.node.stopped = false) {pc : CleanerPC}
    (hpc : pc.Tracks b d h.getMinChosenInstanceID (h.cleaner.saveAt h.node.storage.minimum)) :
    ({ h with cleaner.pc := pc } : Host).Tracked b d :=
  ⟨hk.written, hk.log, fun _ => { hk.cleaner hrun with pc := hpc }⟩

/-- `DeleteOne` deletes the record. -/
theorem Tracked.delete (hk : h.Tracked b d) (hi : h.InStep) (hrun : h.node.stopped = false)
    (hpc : h.cleaner.pc = .loop i cp maxChosen) (hlt : add64 i h.cleaner.holdCount < cp)
    (hsum : i + h.cleaner.holdCount < 2 ^ 64) :
    ({ h with
      node.storage := h.node.storage.del i
      cleaned := (i, h.cleaner.holdCount) :: h.cleaned
      cleaner.pc := .deleted i cp maxChosen } : Host).Tracked false (i + 1) := by
  obtain ⟨hle, hsave, hnear, htracks⟩ := hk.cleaner hrun
  rw [hpc] at htracks
  obtain ⟨-, hm, hd, hdm, hr⟩ := htracks
  have hwithin := hi.pc
  rw [hpc] at hwithin
  have hhold := hi.holdCount
  have hstart := hk.log.start_le
  have hcovered : i + 300 < SMFac.start h.sms := by
    unfold add64 at hlt
    rw [Nat.mod_eq_of_lt hsum] at hlt
    have := hwithin.1
    omega
  have hwindow : i ≤ h.node.storage.minimum + 99 ∨ h.node.storage.minimum = 0 ∧ i ≤ 100 := by
    have hr := le_max_iff.mp hr
    rw [deleteSaveInterval_eq] at hr
    omega
  have hother (j : Nat) (hj : h.node.instanceID ≤ j + 1) : (h.node.storage.del i).get j = h.node.storage.get j := by
    rw [LogStorage.get_del, if_neg (by omega)]
  have hnow : (h.node.storage.del i).get h.node.instanceID = h.node.storage.get h.node.instanceID := hother _ (by omega)
  refine ⟨⟨?_, ?_, ?_⟩, hk.log.delete (hle.trans hm) hd (by omega) hcovered hwindow,
    fun _ => ⟨hle, hsave, hnear, rfl, rfl, hm, hd.trans hdm, hr⟩⟩
  · exact fun x hx => hk.written.le x (List.mem_of_mem_filter hx)
  · intro hne
    exact (congrArg Option.isSome hnow).trans (hk.written.accepted hne)
  · intro hl
    exact (congrArg Option.isSome hnow).trans (hk.written.learned hl)

/-- `DeleteOne` sets the minimum in memory and saves nothing. -/
theorem Tracked.cached (hk : h.Tracked b d) (hrun : h.node.stopped = false)
    (hpc : h.cleaner.pc = .deleted i cp maxChosen) {pc : CleanerPC}
    (hnext : pc = .sleep ∨ pc = .loop (i + 1) cp maxChosen ∧ i < h.cleaner.saveAt h.node.storage.minimum) :
    ({ h with node.checkpointMgr.minChosenInstanceID := i, cleaner.pc := pc } : Host).Tracked false d := by
  obtain ⟨hle, hsave, hnear, htracks⟩ := hk.cleaner hrun
  rw [hpc] at htracks
  obtain ⟨-, rfl, hm, him, hr⟩ := htracks
  have hne : false = true ↔ i = i + 1 := by simp
  refine ⟨⟨hk.written.le, hk.written.accepted, hk.written.learned⟩, hk.log, fun _ => ⟨hle.trans hm, hsave, hr, ?_⟩⟩
  rcases hnext with rfl | ⟨rfl, hlt⟩
  · exact ⟨hne, Nat.le_succ i, le_rfl⟩
  · exact ⟨hne, Nat.le_succ i, le_rfl, le_rfl, hlt⟩

/-- `DeleteOne` saves the next instance as the minimum. -/
theorem Tracked.saved (hk : h.Tracked b d) (hrun : h.node.stopped = false)
    (hpc : h.cleaner.pc = .deleted i cp maxChosen) (hsum : i + 300 < 2 ^ 64) :
    ({ h with
      node.storage.minChosenInstanceID := some (i + 1)
      node.checkpointMgr.minChosenInstanceID := i + 1
      cleaner.lastSave := i
      cleaner.pc := .loop (i + 1) cp maxChosen } : Host).Tracked true d := by
  obtain ⟨hle, -, -, htracks⟩ := hk.cleaner hrun
  rw [hpc] at htracks
  obtain ⟨-, rfl, hm, him, -⟩ := htracks
  have hat : i + 1 ≤ Cleaner.saveAt { h.cleaner with lastSave := i } (i + 1) := le_max_right _ _
  refine ⟨⟨hk.written.le, hk.written.accepted, hk.written.learned⟩, hk.log.save rfl ?_ le_rfl (Nat.le_succ _),
    fun _ => ⟨le_rfl, Or.inr ⟨rfl, hsum⟩, hat, iff_of_true rfl rfl, le_rfl, le_rfl, Nat.le_succ _, hat⟩⟩
  change h.node.storage.minimum ≤ i + 1
  omega

/-- Every step of the cleaner. -/
theorem Tracked.clean (hk : h.Tracked b d) (hi : h.InStep) (hrun : h.node.stopped = false)
    (hsums : ∀ i cp, h.Deletes (.clean env) i cp → i + h.cleaner.holdCount < 2 ^ 64) :
    ∃ d', (h.clean env).Tracked (h.saved b (.clean env)) d' := by
  obtain ⟨hle, hsave, hnear, htracks⟩ := hk.cleaner hrun
  have hstopped : ¬ h.node.stopped = true := by rw [hrun]; exact Bool.false_ne_true
  unfold Host.clean Host.saved
  simp only [if_neg hstopped]
  cases hpc : h.cleaner.pc with
  | sleep =>
    rw [hpc] at htracks
    obtain ⟨hb, hm, hd⟩ := htracks
    exact ⟨d, hk.goTo hrun ⟨hb, le_rfl, hm, hd, hnear⟩⟩
  | readMin i =>
    rw [hpc] at htracks
    exact ⟨d, hk.goTo hrun htracks⟩
  | readCP i cp =>
    rw [hpc] at htracks
    exact ⟨d, hk.goTo hrun htracks⟩
  | loop i cp maxChosen =>
    rw [hpc] at htracks
    obtain ⟨hb, hm, him, hd, -⟩ := htracks
    have hsleep : ({ h with cleaner.pc := .sleep } : Host).Tracked b d := hk.goTo hrun ⟨hb, hm.trans him, hd⟩
    simp only []
    split
    · rename_i hlt
      cases hput : env.puts.headD true with
      | true =>
        rw [if_pos rfl, Bool.not_true, Bool.and_false]
        exact ⟨i + 1, hk.delete hi hrun hpc hlt.1 (hsums i cp ⟨env, maxChosen, rfl, hpc, hlt⟩)⟩
      | false =>
        rw [if_neg Bool.false_ne_true, Bool.not_false, Bool.and_true]
        exact ⟨d, hsleep⟩
    · exact ⟨d, hsleep⟩
  | deleted i cp maxChosen =>
    rw [hpc] at htracks
    obtain ⟨-, hd, hm, him, hr⟩ := htracks
    have hsum : i + 300 < 2 ^ 64 := by
      obtain ⟨x, hx, hxd⟩ := hk.log.frontier (by omega)
      have hcovered := hk.log.covered x hx
      have hlt : SMFac.start h.sms < 2 ^ 64 := nextInstance_lt _
      omega
    have hnext : add64 i 1 = i + 1 := Nat.mod_eq_of_lt (by omega)
    have hat : add64 h.cleaner.lastSave deleteSaveInterval = h.cleaner.lastSave + deleteSaveInterval := by
      refine Nat.mod_eq_of_lt ?_
      rw [deleteSaveInterval_eq]
      omega
    simp only [hnext, hat]
    by_cases hsaves : i ≥ h.cleaner.lastSave + deleteSaveInterval
    · rw [if_pos hsaves, decide_eq_true hsaves, Bool.true_and]
      unfold setMinChosenInstanceID Proc.nextPut Host.proc
      simp only []
      cases hput : env.puts.headD true with
      | true => exact ⟨d, hk.saved hrun hpc hsum⟩
      | false => exact ⟨d, hk.cached hrun hpc (Or.inl rfl)⟩
    · rw [if_neg hsaves, decide_eq_false hsaves, Bool.false_and]
      exact ⟨d, hk.cached hrun hpc (Or.inr ⟨rfl, (Nat.lt_of_not_le hsaves).trans_le (le_max_left _ _)⟩)⟩

end Clean

/-! ## Every step -/

section Step

variable {h : Host} {b : Bool} {d : Nat}

/-- What the node handles adds records and leaves the minimum alone. -/
theorem Tracked.work (hk : h.Tracked b d) (hi : h.InStep) {kind : EventKind} {env : Env}
    (hlog : LogKept h.node.config.myNodeID (h.step P (.work kind env)).hist) :
    (h.step P (.work kind env)).Tracked b d := by
  rcases work_cases (P := P) h kind env with heq | ⟨hrun, hkind, heq⟩
  · rw [heq]
    exact hk
  · rw [heq] at hlog ⊢
    obtain ⟨hwritten, hgrow⟩ := @handle_extends P (h.proc env) kind hkind (hi.commit hrun) hlog hk.written
    have hmin := handle_minimum hkind (h.proc env) hlog.2
    obtain ⟨hcached, hstored⟩ := Prod.mk.inj hmin
    have hminimum : (handle P kind (h.proc env)).node.storage.minimum = h.node.storage.minimum :=
      congrArg (·.getD 0) hstored
    refine ⟨hwritten, hk.log.grow hgrow rfl hminimum, fun _ => ?_⟩
    have hcleaner := hk.cleaner hrun
    unfold getMinChosenInstanceID at hcleaner ⊢
    simp only [hminimum]
    rw [show (handle P kind (h.proc env)).node.checkpointMgr.minChosenInstanceID = _ from hcached]
    exact hcleaner

/-- A checkpoint of instances that the node has passed. -/
theorem start_raise_le {smid i : Nat} {id : UInt64} {sms : List StateMachine} (hstart : SMFac.start sms ≤ i)
    (hid : nextInstance id ≤ i) : SMFac.start (sms.map (raise smid id)) ≤ i := by
  rw [SMFac.start_le_iff] at hstart ⊢
  intro sm hsm
  have hmap : SMFac.counted (sms.map (raise smid id)) = (SMFac.counted sms).map (raise smid id) := by
    unfold SMFac.counted
    simp only [userSMs_raise, List.map_eq_nil_iff]
    split <;> rfl
  rw [hmap] at hsm
  obtain ⟨sm', hsm', rfl⟩ := List.mem_map.mp hsm
  unfold raise
  split
  · exact hid
  · exact hstart sm' hsm'

theorem Tracked.checkpoint (hk : h.Tracked b d) {smid : Nat} {id : UInt64} (hid : nextInstance id ≤ h.node.instanceID) :
    (h.step P (.checkpoint smid id)).Tracked b d :=
  ⟨hk.written, { hk.log with
    start_le := start_raise_le hk.log.start_le hid
    covered := fun x hx => (hk.log.covered x hx).trans_le (start_le_raise smid id h.sms) }, hk.cleaner⟩

/-- All that was deleted lies in reach of the probing exactly when the first record does. -/
theorem Tracked.reached_iff (hk : h.Tracked b d) :
    (∀ x ∈ h.cleaned, x.1 < h.node.storage.minimum + deleteSaveInterval) ↔
      d ≤ h.node.storage.minimum + deleteSaveInterval := by
  constructor
  · intro hall
    rcases hk.log.stored_le.eq_or_lt with heq | hlt
    · omega
    · obtain ⟨x, hx, hxd⟩ := hk.log.frontier hlt
      have := hall x hx
      omega
  · exact fun hle x hx => (hk.log.cleaned_lt x hx).trans_le hle

/-- A start repairs the minimum as far as its probing reaches. -/
theorem Tracked.restart (hk : h.Tracked b d) (env : Env) :
    (h.step P (.start env)).Tracked (h.saved b (.start env)) d := by
  obtain ⟨hge, hle, hd, hiff⟩ := hk.log.fixed
  obtain ⟨hcp, hplace⟩ := hk.log.place hk.written.le
  have hsaved : h.saved b (.start env) = true ↔ h.node.storage.fixed (SMFac.start h.sms) = d := by
    unfold Host.saved
    rw [decide_eq_true_iff, hk.reached_iff, hiff]
  rcases @restart_log P (SMFac.start h.sms) (h.proc env) hcp with hstart | ⟨storage, hnode, hrecords, hmin⟩
  · have hlog := hplace.save hstart.records (hge.trans hstart.minimum.ge) (hstart.minimum.le.trans hle)
      (by rw [hstart.minimum]; exact hd)
    refine ⟨hstart.written, hstart.instanceID ▸ hlog, fun _ => ⟨?_, Or.inl rfl, ?_, ?_⟩⟩
    · exact (hstart.minimum.trans hstart.cached.symm).le
    · exact (hstart.cached.trans hstart.minimum.symm).le.trans (le_max_right _ _)
    · refine ⟨?_, hstart.cached.le.trans hle, hd.trans (Nat.succ_le_succ hstart.cached.ge)⟩
      rw [hsaved]
      exact ⟨fun heq => hstart.cached.trans heq, fun heq => hstart.cached.symm.trans heq⟩
  · have hstep : (h.step P (.start env)).node = { h.node with storage := storage, stopped := true } := hnode
    have hlog : Trimmed d storage h.node.instanceID (SMFac.start h.sms) h.cleaned := by
      rcases hmin with hmin | hmin
      · exact hk.log.congr hrecords hmin
      · exact hk.log.save hrecords (hge.trans hmin.ge) (hmin.le.trans hle) (by rw [hmin]; exact hd)
    refine ⟨?_, ?_, ?_⟩
    · rw [hstep]
      refine ⟨?_, ?_, ?_⟩
      · exact fun x hx => hk.written.le x ((congrArg (x ∈ ·) hrecords).mp hx)
      · intro hne
        exact (congrArg (fun r => (r.lookup h.node.instanceID).isSome) hrecords).trans (hk.written.accepted hne)
      · intro hl
        exact (congrArg (fun r => (r.lookup h.node.instanceID).isSome) hrecords).trans (hk.written.learned hl)
    · rw [hstep]
      exact hlog
    · rw [hstep]
      exact nofun

theorem Tracked.step (hk : h.Tracked b d) (hi : h.InStep) {e : HostEvent} (hr : h.Regular P e) :
    ∃ d', (h.step P e).Tracked (h.saved b e) d' := by
  cases e with
  | work kind env => exact ⟨d, hk.work hi hr.log⟩
  | checkpoint smid id => exact ⟨d, hk.checkpoint (hr.checkpoint smid id rfl)⟩
  | setHoldPaxosLogCount holdCount =>
    exact ⟨d, hk.written, hk.log, fun hrun => ⟨(hk.cleaner hrun).le, (hk.cleaner hrun).lastSave,
      (hk.cleaner hrun).near, (hk.cleaner hrun).pc⟩⟩
  | clean env =>
    cases hrun : h.node.stopped with
    | true =>
      have hsaved : h.saved b (.clean env) = b := if_pos hrun
      rw [show h.step P (.clean env) = h from if_pos hrun, hsaved]
      exact ⟨d, hk⟩
    | false =>
      rw [show h.step P (.clean env) = h.clean env from if_neg (by rw [hrun]; exact Bool.false_ne_true)]
      exact hk.clean hi hrun hr.sums
  | start env => exact ⟨d, hk.restart env⟩

theorem Complete.tracked (hc : h.Complete) : h.Tracked true h.node.storage.minimum := by
  have hcleaned : ∀ x ∈ h.cleaned, False := by
    rw [hc.cleaned]
    exact nofun
  refine ⟨hc.written, ⟨le_rfl, ?_, fun i hle hlt => iff_of_true (hc.log i hle hlt) hle, fun hpos => ?_,
    fun x hx => (hcleaned x hx).elim, fun hlt => absurd hlt (lt_irrefl _), Or.inl (Nat.le_add_right _ _), hc.start,
    fun x hx => (hcleaned x hx).elim⟩, ?_⟩
  · have := hc.stored
    omega
  · have hstored := hc.stored
    exact ⟨h.node.instanceID - 1, by omega, by omega, hc.log _ (by omega) (by omega)⟩
  · rw [hc.stopped]
    exact nofun

end Step

theorem SavedRun.run {b : Bool} {h : Host} (hr : SavedRun P b h) : Run P (fun _ _ => True) h := by
  induction hr with
  | init hc => exact .init hc.stopped hc.cleaner hc.cleaned
  | step _ _ ih => exact ih.step trivial

theorem SavedRun.tracked {b : Bool} {h : Host} (hr : SavedRun P b h) : ∃ d, h.Tracked b d := by
  induction hr with
  | init hc => exact ⟨_, hc.tracked⟩
  | step hr hregular ih =>
    obtain ⟨d, hk⟩ := ih
    exact hk.step hr.run.inStep hregular

/-- **The range that a node reports as available can be read exactly while the minimum is up to date**: no instance was
deleted since `DeleteOne` last saved the next one, or since a start whose probing reached all that was deleted. In every
state it can be read from the second instance after the minimum on. -/
theorem readable_iff_saved {b : Bool} {h : Host} (hr : SavedRun P b h) (hrun : h.node.stopped = false) :
    (h.Readable ↔ b = true) ∧
      ∀ i, h.getMinChosenInstanceID + 2 ≤ i → i < h.node.instanceID → (h.node.storage.get i).isSome = true := by
  obtain ⟨d, hk⟩ := hr.tracked
  obtain ⟨hle, -, -, htracks⟩ := hk.cleaner hrun
  have hkept (i : Nat) (hi : h.getMinChosenInstanceID ≤ i) (hlt : i < h.node.instanceID) :
      (h.node.storage.get i).isSome = true ↔ d ≤ i := hk.log.kept i (hle.trans hi) hlt
  have hd : d ≤ h.getMinChosenInstanceID + 2 ∧ (b = true ↔ d ≤ h.getMinChosenInstanceID) := by
    cases hpc : h.cleaner.pc with
    | sleep | readMin | readCP | loop =>
      rw [hpc] at htracks
      obtain ⟨hb, hrest⟩ := htracks
      rw [hb]
      omega
    | deleted =>
      rw [hpc] at htracks
      obtain ⟨hb, hd, hm, hi, -⟩ := htracks
      simp only [hb, Bool.false_eq_true, false_iff]
      omega
  refine ⟨?_, fun i hi hlt => (hkept i (by omega) hlt).mpr (hd.1.trans hi)⟩
  rw [hd.2]
  constructor
  · intro hread
    by_contra hlt
    -- the last record that was deleted is in the range
    obtain ⟨x, hx, hxd⟩ := hk.log.frontier (by omega)
    have hn := hk.log.le
    have := (hkept (d - 1) (by omega) (by omega)).mp (hread (d - 1) (by omega) (by omega))
    omega
  · exact fun hdm i hi hlt => (hkept i hi hlt).mpr (hdm.trans hi)

/-! ## Runs by their events -/

/-- `Regular` by computation. -/
def regular (P : Params) (h : Host) (e : HostEvent) : Bool :=
  logKept h.node.config.myNodeID (h.step P e).hist &&
    (match h.cleaner.pc with
      | .loop i _ _ => decide (i + h.cleaner.holdCount < 2 ^ 64)
      | _ => true) &&
    match e with
    | .checkpoint _ id => decide (nextInstance id ≤ h.node.instanceID)
    | _ => true

theorem regular_sound {h : Host} {e : HostEvent} (hk : h.regular P e = true) : h.Regular P e := by
  unfold regular at hk
  simp only [Bool.and_eq_true] at hk
  obtain ⟨⟨hlog, hsums⟩, hcheckpoint⟩ := hk
  refine ⟨logKept_sound hlog, ?_, ?_⟩
  · rintro i cp ⟨env, maxChosen, -, hpc, -⟩
    rw [hpc] at hsums
    simpa using hsums
  · rintro smid id rfl
    simpa using hcheckpoint

def runRegular (P : Params) : List HostEvent → Host → Bool
  | [], _ => true
  | e :: es, h => h.regular P e && runRegular P es (h.step P e)

def runSaved (P : Params) : List HostEvent → Bool → Host → Bool
  | [], b, _ => b
  | e :: es, b, h => runSaved P es (h.saved b e) (h.step P e)

theorem SavedRun.of_events {es : List HostEvent} : ∀ {b : Bool} {h : Host}, SavedRun P b h →
    runRegular P es h = true → SavedRun P (runSaved P es b h) (h.run P es) := by
  induction es with
  | nil => exact fun hr _ => hr
  | cons e es ih =>
    intro b h hr hk
    simp only [runRegular, Bool.and_eq_true] at hk
    exact ih (hr.step (regular_sound hk.1)) hk.2

/-- A node at instance 302 whose log holds all instances before. -/
def fullHost : Host where
  node := { Node.new ((Group.ofList [1]).config 1)
      { records := (List.range 302).map fun i => (i, learnedRecord i ⟨1, 1⟩ (packPaxosValue [7] 1) 0) } with
    instanceID := 302, stopped := true }
  sms := [⟨1, 301⟩]

theorem fullHost_complete : fullHost.Complete := by
  refine ⟨rfl, rfl, rfl, ⟨?_, ?_, ?_⟩, ?_, Or.inl ?_, ?_⟩
  · decide +kernel
  · exact fun h => absurd rfl h
  · exact fun h => absurd h Bool.false_ne_true
  · decide +kernel
  · decide +kernel
  · have hall : ∀ i < 302, (fullHost.node.storage.get i).isSome = true := by decide +kernel
    exact fun i _ hlt => hall i hlt

/-- The cleaner deletes instance 0; the process is killed and started again. -/
theorem readable_iff_saved_restarted : (fullHost.run twoSMs (cleanEvents ++ [.start {}])).Readable := by
  have hr : SavedRun twoSMs (runSaved twoSMs (cleanEvents ++ [.start {}]) true fullHost)
      (fullHost.run twoSMs (cleanEvents ++ [.start {}])) :=
    .of_events (.init fullHost_complete) (by decide +kernel)
  exact (readable_iff_saved hr (by decide +kernel)).1.mpr (by decide +kernel)

/-- After `DeleteOne` has deleted instance 0, the node still reports it as available. -/
theorem deleted_reported : ∃ b h, SavedRun twoSMs b h ∧ h.node.stopped = false ∧ h.getMinChosenInstanceID = 0 ∧
    h.cleaner.pc = .loop 1 302 302 ∧ h.node.storage.get 0 = none ∧ ¬ h.Readable := by
  have hr : ∃ b, SavedRun twoSMs b (fullHost.run twoSMs (cleanEvents ++ [.clean {}])) :=
    ⟨_, .of_events (.init fullHost_complete) (by decide +kernel)⟩
  have hrun : (fullHost.run twoSMs (cleanEvents ++ [.clean {}])).node.stopped = false := by decide +kernel
  have hmin : (fullHost.run twoSMs (cleanEvents ++ [.clean {}])).getMinChosenInstanceID = 0 := by decide +kernel
  have hpc : (fullHost.run twoSMs (cleanEvents ++ [.clean {}])).cleaner.pc = .loop 1 302 302 := by decide +kernel
  have hget : (fullHost.run twoSMs (cleanEvents ++ [.clean {}])).node.storage.get 0 = none := by decide +kernel
  have hpos : 0 < (fullHost.run twoSMs (cleanEvents ++ [.clean {}])).node.instanceID := by decide +kernel
  generalize fullHost.run twoSMs (cleanEvents ++ [.clean {}]) = h at hr hrun hmin hpc hget hpos
  obtain ⟨b, hr⟩ := hr
  refine ⟨b, h, hr, hrun, hmin, hpc, hget, fun hread => ?_⟩
  have hsome := hread 0 hmin.le hpos
  rw [hget] at hsome
  exact absurd hsome Bool.false_ne_true

end Host

end PhxPaxos
