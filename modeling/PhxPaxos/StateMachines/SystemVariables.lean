import PhxPaxos.Abstract.Replay
import PhxPaxos.Model.Codec

/-!
# System variables under replay and checkpoint

Every applied change of the system variables carries the version of the one before, and its own instance id becomes the
version. So what a node has executed it rejects when it sees it again (`applies_past`), and what a node takes over from
another is what it would have executed itself: however often a node is stopped, replays and jumps, it ends with the
variables of a straight execution of the log (`replay_eq_straight`).
-/

namespace PhxPaxos

variable {P : Params}

/-! ## Applying a change -/

namespace SystemVSM

/-- The variables that `Execute` writes for the change `v` at an instance, if it applies. -/
def applies (vsm : SystemVSM) (instanceID : Nat) (v : SystemVariables) : Option SystemVariables :=
  if vsm.systemVariables.gid ≠ 0 ∧ v.gid ≠ vsm.systemVariables.gid then none
  else if v.version ≠ vsm.systemVariables.version then none
  else some { v with version := instanceID }

theorem applies_eq_some {vsm : SystemVSM} {i : Nat} {v v' : SystemVariables} (h : vsm.applies i v = some v') :
    v' = { v with version := i } ∧ v.version = vsm.systemVariables.version ∧
      (vsm.systemVariables.gid ≠ 0 → v.gid = vsm.systemVariables.gid) := by
  unfold applies at h
  split at h
  · cases h
  · rename_i hgid
    split at h
    · cases h
    · rename_i hversion
      exact ⟨(Option.some.inj h).symm, not_not.mp hversion, fun h0 => not_not.mp fun hne => hgid ⟨h0, hne⟩⟩

/-- Only the gid and the version decide whether a change applies. -/
theorem applies_congr {vsm vsm' : SystemVSM} {i : Nat} {v : SystemVariables}
    (hgid : vsm.systemVariables.gid = vsm'.systemVariables.gid)
    (hversion : vsm.systemVariables.version = vsm'.systemVariables.version) : vsm.applies i v = vsm'.applies i v := by
  unfold applies
  rw [hgid, hversion]

end SystemVSM

/-! ## A node by its system variables -/

/-- The part of a node that holds the system variables, in memory and in the storage. -/
structure SystemReplica where
  config : Config
  stored : Option SystemVariables
deriving DecidableEq

namespace SystemReplica

/-- The node at work, all of whose writes succeed. -/
def proc (r : SystemReplica) : Proc where
  node := { config := r.config, storage := { systemVariables := r.stored } }
  env := {}
  net := []
  hist := []

@[simp] theorem proc_config (r : SystemReplica) : r.proc.node.config = r.config := rfl

def ofProc (w : Proc) : SystemReplica := ⟨w.node.config, w.node.storage.systemVariables⟩

variable (P) in
def execute (instanceID : Nat) (value : Bytes) (r : SystemReplica) : SystemReplica :=
  ofProc (SystemVSM.execute P instanceID value r.proc).1

/-- The process is killed and started again. -/
def restart (r : SystemReplica) : SystemReplica :=
  ⟨(Node.new r.config { systemVariables := r.stored }).config, r.stored⟩

variable (P) in
/-- The node gets the checkpoint buffer of a node in state `t`. -/
def updateByCheckpoint (r t : SystemReplica) : SystemReplica :=
  ofProc (PhxPaxos.updateByCheckpoint P (t.config.systemVSM.getCheckpointBuffer P) r.proc).1

/-- The variables are replaced in memory and in the storage. -/
def update (v : SystemVariables) (r : SystemReplica) : SystemReplica :=
  ⟨{ r.config with systemVSM := SystemVSM.reflesh v }, some v⟩

theorem execute_eq {i : Nat} {value : Bytes} {v : SystemVariables} (hv : P.parseSystemVariables value = some v)
    (r : SystemReplica) :
    r.execute P i value = match r.config.systemVSM.applies i v with
      | none => r
      | some v' => r.update v' := by
  have hproc : ofProc r.proc = r := rfl
  unfold execute SystemVSM.execute
  rw [hv]
  cases happly : r.config.systemVSM.applies i v with
  | none =>
    unfold SystemVSM.applies at happly
    by_cases hgid : r.config.systemVSM.systemVariables.gid ≠ 0 ∧ v.gid ≠ r.config.systemVSM.systemVariables.gid
    · simp only []
      rw [if_pos (by exact hgid), hproc]
    · rw [if_neg hgid] at happly
      have hversion : v.version ≠ r.config.systemVSM.systemVariables.version := by simpa using happly
      simp only []
      rw [if_neg (by exact hgid), if_pos (by exact hversion), hproc]
  | some v' =>
    obtain ⟨rfl, hversion, hgid⟩ := SystemVSM.applies_eq_some happly
    simp only []
    rw [if_neg (by exact fun h => h.2 (hgid h.1)), if_neg (by exact not_not.mpr hversion)]
    rfl

/-- The variables of a checkpoint are taken over when they are newer. -/
theorem updateByCheckpoint_eq (hcodec : ∀ v, P.parseSystemVariables (P.serializeSystemVariables v) = some v)
    (hne : ∀ v, P.serializeSystemVariables v ≠ []) (r t : SystemReplica) :
    r.updateByCheckpoint P t =
      let v := t.config.systemVSM.systemVariables
      let now := r.config.systemVSM.systemVariables
      if v.version = noVersion ∨ v.gid = 0 ∨ now.gid ≠ 0 ∧ v.gid ≠ now.gid ∨
        now.version ≠ noVersion ∧ v.version ≤ now.version then r
      else r.update v := by
  have hproc : ofProc r.proc = r := rfl
  unfold updateByCheckpoint PhxPaxos.updateByCheckpoint SystemVSM.getCheckpointBuffer
  by_cases hinit : t.config.systemVSM.systemVariables.version = noVersion ∨ t.config.systemVSM.systemVariables.gid = 0
  · rw [if_pos hinit, if_pos (hinit.imp_right Or.inl)]
    rfl
  · have hlen : (P.serializeSystemVariables t.config.systemVSM.systemVariables).length ≠ 0 :=
      fun h => hne _ (List.length_eq_zero_iff.mp h)
    obtain ⟨hversion, hgid⟩ := not_or.mp hinit
    rw [if_neg hinit, if_neg hlen, hcodec]
    simp only []
    rw [if_neg hversion]
    by_cases h₁ : r.config.systemVSM.systemVariables.gid ≠ 0 ∧
        t.config.systemVSM.systemVariables.gid ≠ r.config.systemVSM.systemVariables.gid
    · rw [if_pos (by exact h₁), if_pos (Or.inr (Or.inr (Or.inl h₁))), hproc]
    · by_cases h₂ : r.config.systemVSM.systemVariables.version ≠ noVersion ∧
          t.config.systemVSM.systemVariables.version ≤ r.config.systemVSM.systemVariables.version
      · rw [if_neg (by exact h₁), if_pos (by exact h₂), if_pos (Or.inr (Or.inr (Or.inr h₂))), hproc]
      · rw [if_neg (by exact h₁), if_neg (by exact h₂)]
        exact (if_neg (by tauto)).symm

end SystemReplica

/-! ## The log -/

/-- A value of the system state machine with its instance id. -/
structure SystemEntry where
  instanceID : Nat
  value : Bytes

/-- A log of changes of the system variables, each with its instance id. A change has a gid, and is made on the variables
before the first change or on those of an earlier one. -/
structure SystemLog (P : Params) where
  entries : List SystemEntry
  increasing : ∀ {i j : Nat} {e e' : SystemEntry}, i < j → entries[i]? = some e → entries[j]? = some e' →
    e.instanceID < e'.instanceID
  lt_noVersion : ∀ {i : Nat} {e : SystemEntry}, entries[i]? = some e → e.instanceID < noVersion
  change : ∀ {k : Nat} {e : SystemEntry}, entries[k]? = some e → ∃ v, P.parseSystemVariables e.value = some v ∧ v.gid ≠ 0 ∧
    (v.version = noVersion ∨ ∃ (j : Nat) (e' : SystemEntry), j < k ∧ entries[j]? = some e' ∧ v.version = e'.instanceID)

namespace SystemLog

variable (log : SystemLog P)

/-- The state after the first entries, executed in order. -/
def straight (r : SystemReplica) : Nat → SystemReplica
  | 0 => r
  | k + 1 =>
    match log.entries[k]? with
    | none => straight r k
    | some e => (straight r k).execute P e.instanceID e.value

/-- The variables that the first entries leave in the storage. -/
def written : Nat → Option SystemVariables
  | 0 => none
  | k + 1 =>
    match log.entries[k]? with
    | none => written k
    | some e =>
      match P.parseSystemVariables e.value with
      | none => written k
      | some v => ((SystemVSM.init (written k) []).applies e.instanceID v).or (written k)

/-- The node before the first entry. -/
def fresh (config : Config) : SystemReplica :=
  ⟨{ config with systemVSM := SystemVSM.init none config.nodeInfoList }, none⟩

end SystemLog

theorem SystemVSM.init_gid (stored : Option SystemVariables) (l : List NodeID) :
    (SystemVSM.init stored l).systemVariables.gid = (stored.map SystemVariables.gid).getD 0 := by
  cases stored with
  | none => rfl
  | some v =>
    simp only [SystemVSM.init, Option.getD_some]
    split <;> rfl

theorem SystemVSM.init_version (stored : Option SystemVariables) (l : List NodeID) :
    (SystemVSM.init stored l).systemVariables.version = (stored.map SystemVariables.version).getD noVersion := by
  cases stored with
  | none => rfl
  | some v =>
    simp only [SystemVSM.init, Option.getD_some]
    split <;> rfl

/-- What `Init` reads back for a change does not depend on the configured member list. -/
theorem SystemVSM.init_applies (stored : Option SystemVariables) (l l' : List NodeID) (i : Nat) (v : SystemVariables) :
    (SystemVSM.init stored l).applies i v = (SystemVSM.init stored l').applies i v :=
  SystemVSM.applies_congr (by rw [SystemVSM.init_gid, SystemVSM.init_gid])
    (by rw [SystemVSM.init_version, SystemVSM.init_version])

theorem SystemVSM.init_some {v : SystemVariables} (hgid : v.gid ≠ 0) (l : List NodeID) :
    SystemVSM.init (some v) l = SystemVSM.reflesh v := if_pos hgid

namespace SystemLog

variable {log : SystemLog P}

/-! ## What is written -/

theorem written_succ {k : Nat} {e : SystemEntry} {v : SystemVariables} (he : log.entries[k]? = some e)
    (hv : P.parseSystemVariables e.value = some v) (l : List NodeID) :
    log.written (k + 1) = ((SystemVSM.init (log.written k) l).applies e.instanceID v).or (log.written k) := by
  simp only [written, he, hv, SystemVSM.init_applies _ [] l]

/-- Written variables have a gid, and their version is the instance id of the change. -/
theorem written_some {k : Nat} {v : SystemVariables} (h : log.written k = some v) :
    v.gid ≠ 0 ∧ ∃ (j : Nat) (e : SystemEntry), j < k ∧ log.entries[j]? = some e ∧ v.version = e.instanceID := by
  induction k with
  | zero => cases h
  | succ k ih =>
    cases he : log.entries[k]? with
    | none =>
      simp only [written, he] at h
      obtain ⟨hgid, j, e, hj, hm⟩ := ih h
      exact ⟨hgid, j, e, Nat.lt_succ_of_lt hj, hm⟩
    | some e =>
      obtain ⟨w, hw, hgid, -⟩ := log.change he
      rw [written_succ he hw []] at h
      cases happly : (SystemVSM.init (log.written k) []).applies e.instanceID w with
      | none =>
        rw [happly, Option.none_or] at h
        obtain ⟨hgid, j, e, hj, hm⟩ := ih h
        exact ⟨hgid, j, e, Nat.lt_succ_of_lt hj, hm⟩
      | some w' =>
        rw [happly, Option.some_or, Option.some.injEq] at h
        subst h
        obtain ⟨rfl, -, -⟩ := SystemVSM.applies_eq_some happly
        exact ⟨hgid, k, e, Nat.lt_succ_self k, he, rfl⟩

/-- Entry `k` leaves the variables, or replaces them by newer ones with the same gid. -/
theorem written_succ_cases (k : Nat) : log.written (k + 1) = log.written k ∨
    ∃ (e : SystemEntry) (v : SystemVariables), log.entries[k]? = some e ∧ log.written (k + 1) = some v ∧ v.version = e.instanceID ∧
      ∀ w, log.written k = some w → w.version < v.version ∧ v.gid = w.gid := by
  cases he : log.entries[k]? with
  | none => exact Or.inl (by simp only [written, he])
  | some e =>
    obtain ⟨v, hv, -, -⟩ := log.change he
    rw [written_succ he hv []]
    cases happly : (SystemVSM.init (log.written k) []).applies e.instanceID v with
    | none => exact Or.inl rfl
    | some v' =>
      obtain ⟨rfl, -, hgid⟩ := SystemVSM.applies_eq_some happly
      refine Or.inr ⟨e, _, rfl, rfl, rfl, ?_⟩
      intro w hw
      obtain ⟨hw0, j, e', hj, he', hversion⟩ := written_some hw
      rw [hw, SystemVSM.init_some hw0] at hgid
      exact ⟨hversion ▸ log.increasing hj he' he, hgid hw0⟩

theorem written_mono {k j : Nat} (hkj : k ≤ j) {v : SystemVariables} (h : log.written k = some v) :
    ∃ w, log.written j = some w ∧ v.gid = w.gid ∧ (v = w ∨ v.version < w.version) := by
  induction j, hkj using Nat.le_induction with
  | base => exact ⟨v, h, rfl, Or.inl rfl⟩
  | succ j _ ih =>
    obtain ⟨w, hw, hgid, hvw⟩ := ih
    rcases log.written_succ_cases j with heq | ⟨e, w', -, hw', -, hlt⟩
    · exact ⟨w, heq.trans hw, hgid, hvw⟩
    · obtain ⟨hlt, hgid'⟩ := hlt w hw
      refine ⟨w', hw', hgid.trans hgid'.symm, Or.inr ?_⟩
      rcases hvw with rfl | hvw
      · exact hlt
      · exact hvw.trans hlt

/-- A change that was seen does not apply again. -/
theorem applies_past {i k : Nat} (hik : i < k) {e : SystemEntry} {v : SystemVariables}
    (he : log.entries[i]? = some e) (hv : P.parseSystemVariables e.value = some v) (l : List NodeID) :
    (SystemVSM.init (log.written k) l).applies e.instanceID v = none := by
  -- the version that the change is made on is not that of a later entry
  have holder {j : Nat} {e' : SystemEntry} (hij : i ≤ j) (he' : log.entries[j]? = some e') : v.version ≠ e'.instanceID := by
    obtain ⟨v', hv', -, hversion⟩ := log.change he
    rw [hv, Option.some.injEq] at hv'
    subst hv'
    rcases hversion with hversion | ⟨m, e'', hm, he'', hversion⟩
    · rw [hversion]
      exact (log.lt_noVersion he').ne'
    · rw [hversion]
      exact (log.increasing (hm.trans_le hij) he'' he').ne
  induction k, hik using Nat.le_induction with
  | base =>
    cases happly : (SystemVSM.init (log.written i) l).applies e.instanceID v with
    | none => rw [written_succ he hv l, happly, Option.none_or, happly]
    | some v' =>
      obtain ⟨rfl, -, -⟩ := SystemVSM.applies_eq_some happly
      rw [written_succ he hv l, happly, Option.some_or]
      by_contra hne
      obtain ⟨v'', hv''⟩ := Option.ne_none_iff_exists'.mp hne
      obtain ⟨-, hversion, -⟩ := SystemVSM.applies_eq_some hv''
      exact holder le_rfl he (hversion.trans (SystemVSM.init_version _ _))
  | succ j hij ih =>
    rcases log.written_succ_cases j with heq | ⟨e', w, he', hw, hversion, -⟩
    · rw [heq]
      exact ih
    · rw [hw]
      by_contra hne
      obtain ⟨v'', hv''⟩ := Option.ne_none_iff_exists'.mp hne
      obtain ⟨-, hsame, -⟩ := SystemVSM.applies_eq_some hv''
      exact holder (Nat.le_of_succ_le hij) he' ((hsame.trans (SystemVSM.init_version _ _)).trans hversion)

/-! ## Replicas of the log -/

/-- Nodes that execute the log, are killed and started again at any time, and get the checkpoint buffers of others. -/
def replicated (log : SystemLog P) (config : NodeID → Config) : Replicated NodeID SystemReplica where
  length := log.entries.length
  init n r := r = fresh (config n)
  exec _ k r r' := ∃ e, log.entries[k]? = some e ∧ r' = r.execute P e.instanceID e.value
  recover _ r r' := r' = r.restart
  adopt _ r t r' := r' = r.updateByCheckpoint P t

/-- The node holds the variables that the first `k` entries leave. -/
structure Holds (log : SystemLog P) (nodeInfoList : List NodeID) (k : Nat) (r : SystemReplica) : Prop where
  stored : r.stored = log.written k
  vsm : r.config.systemVSM = SystemVSM.init (log.written k) nodeInfoList
  nodeInfoList : r.config.nodeInfoList = nodeInfoList

theorem Holds.fresh (config : Config) : log.Holds config.nodeInfoList 0 (fresh config) := ⟨rfl, rfl, rfl⟩

/-- An entry that was not seen. -/
theorem Holds.execute {l : List NodeID} {k : Nat} {r : SystemReplica} (h : log.Holds l k r) {e : SystemEntry}
    (he : log.entries[k]? = some e) : log.Holds l (k + 1) (r.execute P e.instanceID e.value) := by
  obtain ⟨v, hv, hgid, -⟩ := log.change he
  have hwritten := written_succ he hv l
  rw [SystemReplica.execute_eq hv, h.vsm]
  cases happly : (SystemVSM.init (log.written k) l).applies e.instanceID v with
  | none =>
    rw [happly, Option.none_or] at hwritten
    exact ⟨h.stored.trans hwritten.symm, by rw [hwritten]; exact h.vsm, h.nodeInfoList⟩
  | some v' =>
    rw [happly, Option.some_or] at hwritten
    obtain ⟨rfl, -, -⟩ := SystemVSM.applies_eq_some happly
    refine ⟨hwritten.symm, ?_, h.nodeInfoList⟩
    rw [hwritten]
    exact (SystemVSM.init_some (by exact hgid) l).symm

/-- An entry that was seen. -/
theorem Holds.execute_past {l : List NodeID} {i k : Nat} {r : SystemReplica} (h : log.Holds l k r) (hik : i < k)
    {e : SystemEntry} (he : log.entries[i]? = some e) : r.execute P e.instanceID e.value = r := by
  obtain ⟨v, hv, -, -⟩ := log.change he
  rw [SystemReplica.execute_eq hv, h.vsm, applies_past hik he hv]

theorem Holds.restart {l : List NodeID} {k : Nat} {r : SystemReplica} (h : log.Holds l k r) : log.Holds l k r.restart := by
  refine ⟨h.stored, ?_, h.nodeInfoList⟩
  rw [← h.stored, ← h.nodeInfoList]
  rfl

theorem Holds.updateByCheckpoint (hcodec : ∀ v, P.parseSystemVariables (P.serializeSystemVariables v) = some v)
    (hne : ∀ v, P.serializeSystemVariables v ≠ []) {l l' : List NodeID} {k j : Nat} {r t : SystemReplica}
    (h : log.Holds l k r) (h' : log.Holds l' j t) : log.Holds l (max k j) (r.updateByCheckpoint P t) := by
  -- nothing changes
  have hkeep (hw : log.written (max k j) = log.written k) : log.Holds l (max k j) r :=
    ⟨h.stored.trans hw.symm, by rw [hw]; exact h.vsm, h.nodeInfoList⟩
  rw [SystemReplica.updateByCheckpoint_eq hcodec hne]
  simp only [h.vsm, h'.vsm, SystemVSM.init_gid, SystemVSM.init_version]
  cases hj : log.written j with
  | none =>
    rw [if_pos (Or.inl (by rfl))]
    refine hkeep ?_
    rcases le_total k j with hkj | hjk
    · rw [max_eq_right hkj, hj]
      by_contra hne
      obtain ⟨v, hv⟩ := Option.ne_none_iff_exists'.mp (Ne.symm hne)
      obtain ⟨w, hw, -⟩ := written_mono hkj hv
      rw [hj] at hw
      cases hw
    · rw [max_eq_left hjk]
  | some v =>
    obtain ⟨hgid, i, e, -, he, hversion⟩ := written_some hj
    have hv : v.version ≠ noVersion := hversion ▸ (log.lt_noVersion he).ne
    -- the variables of the other node are taken
    have htake (hw : log.written (max k j) = some v) : log.Holds l (max k j) (r.update v) :=
      ⟨hw.symm, by rw [hw]; exact (SystemVSM.init_some hgid l).symm, h.nodeInfoList⟩
    rw [SystemVSM.init_some hgid l']
    cases hk : log.written k with
    | none =>
      rw [if_neg (by simp [hv, hgid])]
      refine htake ?_
      rcases le_total k j with hkj | hjk
      · rw [max_eq_right hkj, hj]
      · obtain ⟨w, hw, -⟩ := written_mono hjk hj
        rw [hk] at hw
        cases hw
    | some w =>
      obtain ⟨hgid', i', e', -, he', hversion'⟩ := written_some hk
      have hw : w.version ≠ noVersion := hversion' ▸ (log.lt_noVersion he').ne
      rcases le_total k j with hkj | hjk
      · obtain ⟨v', hv', hsame, hle⟩ := written_mono hkj hk
        rw [hj, Option.some.injEq] at hv'
        subst hv'
        rcases hle with rfl | hlt
        · rw [if_pos (by simp [hw])]
          exact hkeep (by rw [max_eq_right hkj, hj, hk])
        · rw [if_neg (by simp [hv, hgid, hsame, hw, hlt])]
          exact htake (by rw [max_eq_right hkj, hj])
      · obtain ⟨w', hw', hsame, hle⟩ := written_mono hjk hj
        rw [hk, Option.some.injEq] at hw'
        subst hw'
        have hle : v.version ≤ w.version := hle.elim (fun h => h ▸ le_rfl) le_of_lt
        rw [if_pos (by simp [hw, hle])]
        exact hkeep (by rw [max_eq_left hjk])

theorem Holds.straight (config : Config) : ∀ {k : Nat}, k ≤ log.entries.length →
    log.Holds config.nodeInfoList k (log.straight (SystemLog.fresh config) k) := by
  intro k
  induction k with
  | zero => exact fun _ => .fresh config
  | succ k ih =>
    intro hk
    have he : log.entries[k]? = some log.entries[k] := List.getElem?_eq_getElem hk
    simp only [SystemLog.straight, he]
    exact (ih (Nat.le_of_succ_le hk)).execute he

theorem follows (hcodec : ∀ v, P.parseSystemVariables (P.serializeSystemVariables v) = some v)
    (hne : ∀ v, P.serializeSystemVariables v ≠ []) (config : NodeID → Config) :
    (log.replicated config).Follows fun n k r => log.Holds (config n).nodeInfoList k r where
  init := by
    rintro n r rfl
    exact .fresh (config n)
  exec_next := by
    rintro n k r r' - h ⟨e, he, rfl⟩
    exact h.execute he
  exec_past := by
    rintro n i k r r' hik - h ⟨e, he, rfl⟩
    rw [h.execute_past hik he]
    exact h
  recover := by
    rintro n k r r' h rfl
    exact h.restart
  adopt := by
    rintro n m k j r t r' - - h h' rfl
    exact h.updateByCheckpoint hcodec hne h'

/-- **Replay and jumps are equivalent to straight execution**: a node that has come to the end of the log, however often
it was killed, replayed from an earlier entry or took over the variables of another node, holds the system variables of
the straight execution, in memory and in the storage. -/
theorem replay_eq_straight (log : SystemLog P)
    (hcodec : ∀ v, P.parseSystemVariables (P.serializeSystemVariables v) = some v)
    (hne : ∀ v, P.serializeSystemVariables v ≠ []) {config : NodeID → Config} {r : NodeID → Replica SystemReplica}
    (h : (log.replicated config).Run r) {n : NodeID} (hend : (r n).next = log.entries.length) :
    (r n).state.config.systemVSM = (log.straight (fresh (config n)) log.entries.length).config.systemVSM ∧
      (r n).state.stored = (log.straight (fresh (config n)) log.entries.length).stored := by
  have hstate : log.Holds (config n).nodeInfoList log.entries.length (r n).state :=
    h.at_end (follows hcodec hne config) hend
  have hstraight := @Holds.straight _ log (config n) _ le_rfl
  exact ⟨hstate.vsm.trans hstraight.vsm.symm, hstate.stored.trans hstraight.stored.symm⟩

/-- A group of two members, which a third one joins. -/
def joinLog : SystemLog (.protobuf []) where
  entries := [⟨5, serializeSystemVariables ⟨7, [1, 2], noVersion⟩⟩, ⟨9, serializeSystemVariables ⟨7, [1, 2, 3], 5⟩⟩]
  increasing := by
    intro i j e e' hij he he'
    match i, j, hij with
    | 0, 1, _ =>
      cases he
      cases he'
      decide
    | 0, j + 2, _ => cases he'
    | 1, j + 2, _ => cases he'
    | i + 2, _, _ => cases he
  lt_noVersion := by
    intro i e he
    match i with
    | 0 => cases he; decide
    | 1 => cases he; decide
    | i + 2 => cases he
  change := by
    intro k e he
    match k with
    | 0 =>
      cases he
      exact ⟨_, parse_serializeSystemVariables _, by decide, Or.inl rfl⟩
    | 1 =>
      cases he
      exact ⟨_, parse_serializeSystemVariables _, by decide, Or.inr ⟨0, _, by decide, rfl, rfl⟩⟩
    | k + 2 => cases he

/-- Node 1 executes the log, is restarted, and executes the second entry again; node 2 takes over its variables. -/
theorem replay_eq_straight_joinLog :
    let config : Config := ⟨1, false, nullnode, true, [1, 2], SystemVSM.init none [1, 2], ∅, ∅⟩
    let straight := joinLog.straight (fresh config) 2
    let replayed := straight.restart.execute (.protobuf []) 9 (serializeSystemVariables ⟨7, [1, 2, 3], 5⟩)
    let jumped := (fresh config).updateByCheckpoint (.protobuf []) replayed
    jumped.config.systemVSM = straight.config.systemVSM ∧ jumped.stored = straight.stored := by
  intro config
  have h₀ : (joinLog.replicated fun _ => config).Run fun _ => ⟨fresh config, 0, 0⟩ := .init fun _ => rfl
  have h₁ := h₀.step (.exec (n := 1) Nat.zero_lt_two ⟨_, rfl, rfl⟩)
  have h₂ := h₁.step (.exec (n := 1) Nat.one_lt_two ⟨_, rfl, rfl⟩)
  have h₃ := h₂.step (.restart (n := 1) (k := 1) rfl Nat.one_lt_two.le)
  have h₄ := h₃.step (.exec (n := 1) Nat.one_lt_two ⟨_, rfl, rfl⟩)
  have h₅ := h₄.step (.adopt (n := 2) (m := 1) (k := 2) rfl (Nat.le_refl 2))
  have h := joinLog.replay_eq_straight parse_serializeSystemVariables serializeSystemVariables_ne_nil h₅ (n := 2)
    (by rw [Function.update_self]; rfl)
  have hstraight : joinLog.straight (fresh config) 2 =
      ((fresh config).execute (.protobuf []) 5 (serializeSystemVariables ⟨7, [1, 2], noVersion⟩)).execute (.protobuf []) 9
        (serializeSystemVariables ⟨7, [1, 2, 3], 5⟩) := rfl
  rw [hstraight]
  rw [show joinLog.entries.length = 2 from rfl, hstraight] at h
  simpa only [Function.update_self, Function.update_of_ne (by decide : (2 : Nat) ≠ 1)] using h

end SystemLog

end PhxPaxos
