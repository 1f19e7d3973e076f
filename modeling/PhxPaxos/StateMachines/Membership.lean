import PhxPaxos.Model.Membership
import PhxPaxos.StateMachines.SystemVariables

/-!
# Membership changes

Any threads of any nodes add, remove and change members, from whatever their node knows at the time of each read; any proposed
value may be chosen at any time, more than once, or never; nodes execute the chosen values, are killed, replay, and jump. No
change is lost: a value that is accepted was computed from the very membership that it replaces (`Accepted`), since its version
was read before the membership (`Made`), and a call that returns `ok` was accepted (`Reachable.no_lost_update`).
-/

namespace PhxPaxos

/-- A chosen value of the system state machine. -/
structure MemberEntry where
  instanceID : Nat
  proposal : MemberProposal
deriving DecidableEq

def MemberEntry.toSystemEntry (e : MemberEntry) : SystemEntry := ⟨e.instanceID, serializeSystemVariables e.proposal.change⟩

/-- The values that were chosen, the nodes, the calls of their threads, and the values that were proposed. -/
structure MemberGroup (κ : Type*) where
  chosen : List MemberEntry := []
  replicas : NodeID → Replica SystemReplica
  calls : NodeID → κ → MemberCall
  proposals : List MemberProposal := []

namespace MemberGroup

variable {κ : Type*} [DecidableEq κ]

/-- The nodes before the first entry. -/
def start (config : NodeID → Config) : MemberGroup κ where
  replicas n := ⟨SystemLog.fresh (config n), 0, 0⟩
  calls _ _ := .idle

def vsm (n : NodeID) (s : MemberGroup κ) : SystemVSM := (s.replicas n).state.config.systemVSM

def goTo (n : NodeID) (t : κ) (c : MemberCall) (s : MemberGroup κ) : MemberGroup κ :=
  { s with calls := Function.update s.calls n (Function.update (s.calls n) t c) }

/-- A thread calls an operation. -/
def call (n : NodeID) (t : κ) (op : MembershipOp) (s : MemberGroup κ) : MemberGroup κ :=
  match s.calls n t with
  | .idle | .returned _ _ => s.goTo n t (.getGid op)
  | _ => s

/-- The value of a call is proposed. -/
def newValue (n : NodeID) (t : κ) (s : MemberGroup κ) : MemberGroup κ :=
  match s.calls n t with
  | .propose p => { s with proposals := p :: s.proposals }
  | _ => s

/-- A node proposes a gid, where it has none or is at its first instance. -/
def createGid (n : NodeID) (gid : Nat) (s : MemberGroup κ) : MemberGroup κ :=
  if gid = 0 then s else { s with proposals := ⟨none, (s.vsm n).createGidOPValue gid⟩ :: s.proposals }

/-- A value that was proposed is chosen, after all that were chosen before. -/
def choose (instanceID : Nat) (p : MemberProposal) (s : MemberGroup κ) : MemberGroup κ :=
  if p ∈ s.proposals ∧ (∀ e ∈ s.chosen, e.instanceID < instanceID) ∧ instanceID < noVersion then
    { s with chosen := s.chosen ++ [⟨instanceID, p⟩] }
  else s

/-- A node executes its next entry, which is new to it where it is the value of its call `t`. -/
def exec (n : NodeID) (t : Option κ) (s : MemberGroup κ) : MemberGroup κ :=
  let r := s.replicas n
  match s.chosen[r.next]? with
  | none => s
  | some e =>
    let state := r.state.execute (.protobuf []) e.instanceID (serializeSystemVariables e.proposal.change)
    let s' := { s with replicas := Function.update s.replicas n ⟨state, r.next + 1, max r.reached (r.next + 1)⟩ }
    match t with
    | none => s'
    | some t =>
      if s.calls n t = .propose e.proposal ∧ r.next = r.reached then
        s'.goTo n t (.returned (some e.proposal) ((s.vsm n).smret e.proposal.change))
      else s'

/-- `Propose` fails; the value may be chosen all the same. -/
def commitFail (n : NodeID) (t : κ) (ret : PaxosTryCommitRet) (s : MemberGroup κ) : MemberGroup κ :=
  match s.calls n t with
  | .propose p => s.goTo n t (.returned (some p) (.commit ret))
  | _ => s

/-- A node is killed, and started again at an entry that it has reached. -/
def restart (n : NodeID) (next : Nat) (s : MemberGroup κ) : MemberGroup κ :=
  let r := s.replicas n
  if next ≤ r.reached then
    { s with
      replicas := Function.update s.replicas n ⟨r.state.restart, next, r.reached⟩
      calls := Function.update s.calls n fun _ => .idle }
  else s

/-- A node takes over the checkpoint of another. -/
def adopt (n m : NodeID) (next : Nat) (s : MemberGroup κ) : MemberGroup κ :=
  let reached := max (s.replicas n).reached (s.replicas m).reached
  if next ≤ reached then
    { s with
      replicas := Function.update s.replicas n
        ⟨(s.replicas n).state.updateByCheckpoint (.protobuf []) (s.replicas m).state, next, reached⟩ }
  else s

inductive Event (κ : Type*)
  | call (n : NodeID) (t : κ) (op : MembershipOp)
  | read (n : NodeID) (t : κ)
  | newValue (n : NodeID) (t : κ)
  | createGid (n : NodeID) (gid : Nat)
  | choose (instanceID : Nat) (p : MemberProposal)
  | exec (n : NodeID) (t : Option κ)
  | commitFail (n : NodeID) (t : κ) (ret : PaxosTryCommitRet)
  | restart (n : NodeID) (next : Nat)
  | adopt (n m : NodeID) (next : Nat)

def step (e : Event κ) (s : MemberGroup κ) : MemberGroup κ :=
  match e with
  | .call n t op => s.call n t op
  | .read n t => s.goTo n t ((s.calls n t).read (s.vsm n))
  | .newValue n t => s.newValue n t
  | .createGid n gid => s.createGid n gid
  | .choose instanceID p => s.choose instanceID p
  | .exec n t => s.exec n t
  | .commitFail n t ret => s.commitFail n t ret
  | .restart n next => s.restart n next
  | .adopt n m next => s.adopt n m next

inductive Reachable (config : NodeID → Config) : MemberGroup κ → Prop
  | start : Reachable config (start config)
  | step (e : Event κ) {s : MemberGroup κ} : Reachable config s → Reachable config (s.step e)

/-! ## What is accepted -/

/-- The variables that the entries leave in the storage of a node that had none. -/
def written (chosen : List MemberEntry) : Option SystemVariables :=
  chosen.foldl (fun w e => ((SystemVSM.init w []).applies e.instanceID e.proposal.change).or w) none

/-- The entry `e` at place `k` does what it is for: its operation, on the membership that the entries before it leave, or the
first gid, or nothing but a new version. -/
def Accepted (chosen : List MemberEntry) (k : Nat) (e : MemberEntry) : Prop :=
  match e.proposal.op with
  | some op => ∃ v after, written (chosen.take k) = some v ∧ op.afterNodeInfoList v.memberShip = .ok after ∧
      written (chosen.take (k + 1)) = some ⟨v.gid, after, e.instanceID⟩
  | none => ∃ gid members, written (chosen.take (k + 1)) = some ⟨gid, members, e.instanceID⟩ ∧
      ∀ v, written (chosen.take k) = some v → v.gid = gid ∧ v.memberShip = members

/-- The change was computed from what the first `k` entries leave: its version was read first, and its membership from
variables as new or newer. -/
def Made (chosen : List MemberEntry) (k : Nat) (op : MembershipOp) (version : Nat) (after : List NodeID) : Prop :=
  ∃ k₁ k₂ v₁ v₂, k₁ ≤ k₂ ∧ k₂ ≤ k ∧ written (chosen.take k₁) = some v₁ ∧ written (chosen.take k₂) = some v₂ ∧
    version = v₁.version ∧ op.afterNodeInfoList v₂.memberShip = .ok after

/-- The proposal was made by a node that has seen the first `k` entries. -/
def Proposed (chosen : List MemberEntry) (k : Nat) (p : MemberProposal) : Prop :=
  p.change.gid ≠ 0 ∧
    match p.op with
    | some op => Made chosen k op p.change.version p.change.memberShip
    | none => ∃ k₁ ≤ k, p.change.version = ((written (chosen.take k₁)).map SystemVariables.version).getD noVersion ∧
        ∀ v, written (chosen.take k₁) = some v → v.memberShip = p.change.memberShip

/-- What a call of a node that has seen the first `k` entries has read. -/
def CallOk (chosen : List MemberEntry) (k : Nat) : MemberCall → Prop
  | .getVersion _ => ∃ k₀ ≤ k, written (chosen.take k₀) ≠ none
  | .getMembership _ version => ∃ k₁ ≤ k, ∃ v₁, written (chosen.take k₁) = some v₁ ∧ version = v₁.version
  | .opValue op version after => Made chosen k op version after
  | .propose p => Proposed chosen k p
  | .returned (some p) .ok => ∃ i e, chosen[i]? = some e ∧ e.proposal = p ∧ Accepted chosen i e
  | _ => True

/-! ## The log of the group -/

variable {chosen : List MemberEntry} {log : SystemLog (.protobuf [])}

theorem written_take (hlog : log.entries = chosen.map MemberEntry.toSystemEntry) (k : Nat) :
    log.written k = written (chosen.take k) := by
  induction k with
  | zero => rfl
  | succ k ih =>
    have hentry : log.entries[k]? = chosen[k]?.map MemberEntry.toSystemEntry := by rw [hlog, List.getElem?_map]
    cases he : chosen[k]? with
    | none =>
      rw [he, Option.map_none] at hentry
      have hlen := List.getElem?_eq_none_iff.mp he
      rw [List.take_of_length_le (Nat.le_succ_of_le hlen), ← List.take_of_length_le hlen, ← ih]
      simp only [SystemLog.written, hentry]
    | some e =>
      rw [he, Option.map_some] at hentry
      have hsucc : chosen.take (k + 1) = chosen.take k ++ [e] := by rw [List.take_add_one, he, Option.toList_some]
      rw [SystemLog.written_succ hentry (parse_serializeSystemVariables _) [], ih, hsucc]
      simp only [written, List.foldl_append, List.foldl_cons, List.foldl_nil]
      rfl

/-- Variables that were written are only replaced by newer ones. -/
theorem written_mono (hlog : log.entries = chosen.map MemberEntry.toSystemEntry) {k j : Nat} (hkj : k ≤ j)
    {v : SystemVariables} (h : written (chosen.take k) = some v) :
    v.gid ≠ 0 ∧ ∃ w, written (chosen.take j) = some w ∧ v.gid = w.gid ∧ (v = w ∨ v.version < w.version) := by
  rw [← written_take hlog] at h ⊢
  exact ⟨(SystemLog.written_some h).1, SystemLog.written_mono hkj h⟩

/-- The same version, first and last, is the same membership in between. -/
theorem same_between (hlog : log.entries = chosen.map MemberEntry.toSystemEntry) {k₁ k₂ k : Nat} (h₁₂ : k₁ ≤ k₂)
    (h₂ : k₂ ≤ k) {v₁ v₂ v : SystemVariables} (hv₁ : written (chosen.take k₁) = some v₁)
    (hv₂ : written (chosen.take k₂) = some v₂) (hv : written (chosen.take k) = some v) (hsame : v.version = v₁.version) :
    v₂ = v := by
  obtain ⟨-, w₂, hw₂, -, h₁⟩ := written_mono hlog h₁₂ hv₁
  obtain ⟨-, w, hw, -, h₂⟩ := written_mono hlog h₂ hv₂
  rw [hv₂, Option.some.injEq] at hw₂
  rw [hv, Option.some.injEq] at hw
  subst hw₂ hw
  rcases h₂ with h₂ | h₂
  · exact h₂
  · rcases h₁ with rfl | h₁
    · omega
    · omega

theorem written_succ (hlog : log.entries = chosen.map MemberEntry.toSystemEntry) {k : Nat} {e : MemberEntry}
    (he : chosen[k]? = some e) : written (chosen.take (k + 1)) =
      ((SystemVSM.init (written (chosen.take k)) []).applies e.instanceID e.proposal.change).or (written (chosen.take k)) := by
  have hentry : log.entries[k]? = some e.toSystemEntry := by rw [hlog, List.getElem?_map, he, Option.map_some]
  rw [← written_take hlog, ← written_take hlog]
  exact SystemLog.written_succ hentry (parse_serializeSystemVariables _) []

/-- The call is told `ok` where its change applies. -/
theorem smret_eq_ok {vsm : SystemVSM} {v : SystemVariables} (h : vsm.smret v = .ok) (i : Nat) : vsm.applies i v ≠ none := by
  unfold SystemVSM.smret at h
  unfold SystemVSM.applies
  split at h
  · cases h
  case isFalse hgid =>
    split at h
    · cases h
    case isFalse hversion =>
      rw [if_neg hgid, if_neg hversion]
      exact Option.some_ne_none _

/-- A proposal that applies does so to the variables that it was computed from. -/
theorem Proposed.accepted (hlog : log.entries = chosen.map MemberEntry.toSystemEntry) {k : Nat} {e : MemberEntry}
    (he : chosen[k]? = some e) (hp : Proposed chosen k e.proposal) {v' : SystemVariables}
    (happly : (SystemVSM.init (written (chosen.take k)) []).applies e.instanceID e.proposal.change = some v') :
    Accepted chosen k e := by
  have hwritten := written_succ hlog he
  rw [happly, Option.some_or] at hwritten
  obtain ⟨rfl, hversion, hgid⟩ := SystemVSM.applies_eq_some happly
  -- what the change has in common with the variables before it
  have hsame {w : SystemVariables} (hw : written (chosen.take k) = some w) :
      e.proposal.change.version = w.version ∧ w.gid = e.proposal.change.gid := by
    have hw0 := (written_mono hlog le_rfl hw).1
    rw [hw, SystemVSM.init_some hw0] at hversion hgid
    exact ⟨hversion, (hgid hw0).symm⟩
  obtain ⟨-, hmade⟩ := hp
  unfold Accepted
  cases hop : e.proposal.op with
  | some op =>
    rw [hop] at hmade
    obtain ⟨k₁, k₂, v₁, v₂, h₁₂, h₂, hv₁, hv₂, hv, hafter⟩ := hmade
    obtain ⟨-, w, hw, -, -⟩ := written_mono hlog h₂ hv₂
    obtain ⟨hversion', hgid'⟩ := hsame hw
    have heq := same_between hlog h₁₂ h₂ hv₁ hv₂ hw (hversion'.symm.trans hv)
    subst heq
    refine ⟨v₂, e.proposal.change.memberShip, hw, hafter, ?_⟩
    rw [hwritten, hgid']
  | none =>
    rw [hop] at hmade
    obtain ⟨k₁, hk₁, hv, hmembers⟩ := hmade
    refine ⟨e.proposal.change.gid, e.proposal.change.memberShip, hwritten, fun w hw => ?_⟩
    obtain ⟨hversion', hgid'⟩ := hsame hw
    refine ⟨hgid', ?_⟩
    cases hv₁ : written (chosen.take k₁) with
    | none =>
      rw [hv₁, Option.map_none, Option.getD_none] at hv
      rw [← written_take hlog] at hw
      obtain ⟨-, j, e', -, he', hid⟩ := SystemLog.written_some hw
      have hlt := log.lt_noVersion he'
      omega
    | some v₁ =>
      rw [hv₁, Option.map_some, Option.getD_some] at hv
      rw [← same_between hlog le_rfl hk₁ hv₁ hv₁ hw (hversion'.symm.trans hv)]
      exact hmembers v₁ hv₁

/-- A chosen value is accepted, or changes nothing. -/
theorem Proposed.accepted_or_same (hlog : log.entries = chosen.map MemberEntry.toSystemEntry) {k : Nat} {e : MemberEntry}
    (he : chosen[k]? = some e) (hp : Proposed chosen k e.proposal) :
    Accepted chosen k e ∨ written (chosen.take (k + 1)) = written (chosen.take k) := by
  cases happly : (SystemVSM.init (written (chosen.take k)) []).applies e.instanceID e.proposal.change with
  | none => exact Or.inr (by rw [written_succ hlog he, happly, Option.none_or])
  | some v' => exact Or.inl (hp.accepted hlog he happly)

/-! ## More entries -/

section Append

variable {k j : Nat} {p : MemberProposal} {op : MembershipOp} {version : Nat} {after : List NodeID}

theorem take_append (hk : k ≤ chosen.length) (l : List MemberEntry) : (chosen ++ l).take k = chosen.take k :=
  List.take_append_of_le_length hk

theorem Made.mono (h : Made chosen k op version after) (hkj : k ≤ j) : Made chosen j op version after := by
  obtain ⟨k₁, k₂, v₁, v₂, h₁₂, h₂, hmade⟩ := h
  exact ⟨k₁, k₂, v₁, v₂, h₁₂, h₂.trans hkj, hmade⟩

theorem Made.append (h : Made chosen k op version after) (hk : k ≤ chosen.length) (l : List MemberEntry) :
    Made (chosen ++ l) k op version after := by
  obtain ⟨k₁, k₂, v₁, v₂, h₁₂, h₂, hv₁, hv₂, hmade⟩ := h
  rw [← take_append (h₁₂.trans (h₂.trans hk)) l] at hv₁
  rw [← take_append (h₂.trans hk) l] at hv₂
  exact ⟨k₁, k₂, v₁, v₂, h₁₂, h₂, hv₁, hv₂, hmade⟩

theorem Proposed.mono (h : Proposed chosen k p) (hkj : k ≤ j) : Proposed chosen j p := by
  obtain ⟨hgid, hmade⟩ := h
  refine ⟨hgid, ?_⟩
  cases hop : p.op with
  | some op =>
    rw [hop] at hmade
    exact hmade.mono hkj
  | none =>
    rw [hop] at hmade
    obtain ⟨k₁, hk₁, hmade⟩ := hmade
    exact ⟨k₁, hk₁.trans hkj, hmade⟩

theorem Proposed.append (h : Proposed chosen k p) (hk : k ≤ chosen.length) (l : List MemberEntry) :
    Proposed (chosen ++ l) k p := by
  obtain ⟨hgid, hmade⟩ := h
  refine ⟨hgid, ?_⟩
  cases hop : p.op with
  | some op =>
    rw [hop] at hmade
    exact hmade.append hk l
  | none =>
    rw [hop] at hmade
    obtain ⟨k₁, hk₁, hmade⟩ := hmade
    refine ⟨k₁, hk₁, ?_⟩
    rw [take_append (hk₁.trans hk)]
    exact hmade

theorem Accepted.append {e : MemberEntry} (h : Accepted chosen k e) (hk : k < chosen.length) (l : List MemberEntry) :
    Accepted (chosen ++ l) k e := by
  unfold Accepted
  rw [take_append hk.le, take_append hk]
  exact h

theorem CallOk.append {c : MemberCall} (h : CallOk chosen k c) (hk : k ≤ chosen.length) (l : List MemberEntry) :
    CallOk (chosen ++ l) k c := by
  cases c with
  | idle => trivial
  | getGid op => trivial
  | getVersion op =>
    obtain ⟨k₀, hk₀, hne⟩ := h
    exact ⟨k₀, hk₀, by rwa [take_append (hk₀.trans hk)]⟩
  | getMembership op version =>
    obtain ⟨k₁, hk₁, hv⟩ := h
    exact ⟨k₁, hk₁, by rwa [take_append (hk₁.trans hk)]⟩
  | opValue op version after => exact Made.append h hk l
  | propose p => exact Proposed.append h hk l
  | returned p ret =>
    cases p with
    | none => trivial
    | some p =>
      cases ret with
      | ok =>
        obtain ⟨i, e, he, hp, haccepted⟩ := h
        have hlt := (List.getElem?_eq_some_iff.mp he).1
        exact ⟨i, e, by rw [List.getElem?_append_left hlt, he], hp, haccepted.append hlt l⟩
      | _ => trivial

theorem CallOk.mono {c : MemberCall} (h : CallOk chosen k c) (hkj : k ≤ j) : CallOk chosen j c := by
  cases c with
  | idle => trivial
  | getGid op => trivial
  | getVersion op =>
    obtain ⟨k₀, hk₀, hne⟩ := h
    exact ⟨k₀, hk₀.trans hkj, hne⟩
  | getMembership op version =>
    obtain ⟨k₁, hk₁, hv⟩ := h
    exact ⟨k₁, hk₁.trans hkj, hv⟩
  | opValue op version after => exact Made.mono h hkj
  | propose p => exact Proposed.mono h hkj
  | returned p ret =>
    cases p with
    | none => trivial
    | some p => cases ret <;> exact h

end Append

/-! ## The reads -/

/-- A call reads variables that are as new as those that it read before, or newer. -/
theorem CallOk.read (hlog : log.entries = chosen.map MemberEntry.toSystemEntry) {k : Nat} {c : MemberCall}
    (h : CallOk chosen k c) (l : List NodeID) :
    CallOk chosen k (c.read (SystemVSM.init (written (chosen.take k)) l)) := by
  -- the variables that a node holds once some were written
  have hnow {j : Nat} (hj : j ≤ k) {v : SystemVariables} (hv : written (chosen.take j) = some v) :
      ∃ w, w.gid ≠ 0 ∧ written (chosen.take k) = some w ∧
        (SystemVSM.init (written (chosen.take k)) l).systemVariables = w := by
    obtain ⟨hgid, w, hw, hsame, -⟩ := written_mono hlog hj hv
    rw [hsame] at hgid
    exact ⟨w, hgid, hw, by rw [hw, SystemVSM.init_some hgid]; rfl⟩
  cases c with
  | idle => trivial
  | getGid op =>
    simp only [MemberCall.read]
    split
    · trivial
    case isFalse hgid =>
      refine ⟨k, le_rfl, fun hnone => hgid ?_⟩
      rw [SystemVSM.init_gid, hnone]
      rfl
  | getVersion op =>
    obtain ⟨k₀, hk₀, hne⟩ := h
    obtain ⟨v, hv⟩ := Option.ne_none_iff_exists'.mp hne
    obtain ⟨w, -, hw, hvars⟩ := hnow hk₀ hv
    exact ⟨k, le_rfl, w, hw, by rw [hvars]⟩
  | getMembership op version =>
    obtain ⟨k₁, hk₁, v₁, hv₁, hversion⟩ := h
    obtain ⟨w, -, hw, hvars⟩ := hnow hk₁ hv₁
    simp only [MemberCall.read, hvars]
    cases hafter : op.afterNodeInfoList w.memberShip with
    | error ret => trivial
    | ok after => exact ⟨k₁, k, v₁, w, hk₁, le_rfl, hv₁, hw, hversion, hafter⟩
  | opValue op version after =>
    obtain ⟨-, k₂, -, v₂, -, h₂, -, hv₂, -⟩ := id h
    obtain ⟨w, hgid, -, hvars⟩ := hnow h₂ hv₂
    refine ⟨?_, h⟩
    simpa only [SystemVSM.membershipOPValue, hvars] using hgid
  | propose p => exact h
  | returned p ret => exact h

/-- A gid is proposed with the version and the membership that the node knows. -/
theorem proposed_createGid (hlog : log.entries = chosen.map MemberEntry.toSystemEntry) {k gid : Nat} (hgid : gid ≠ 0)
    (l : List NodeID) :
    Proposed chosen k ⟨none, (SystemVSM.init (written (chosen.take k)) l).createGidOPValue gid⟩ := by
  refine ⟨hgid, k, le_rfl, SystemVSM.init_version _ _, fun v hv => ?_⟩
  rw [hv]
  simp only [SystemVSM.createGidOPValue, SystemVSM.init_some (written_mono hlog le_rfl hv).1]
  rfl

theorem getElem?_snoc {α : Type*} {l : List α} {a b : α} {k : Nat} (h : (l ++ [a])[k]? = some b) :
    l[k]? = some b ∨ k = l.length ∧ b = a := by
  rcases Nat.lt_or_ge k l.length with hk | hk
  · rw [List.getElem?_append_left hk] at h
    exact Or.inl h
  · rw [List.getElem?_append_right hk] at h
    obtain ⟨hlt, heq⟩ := List.getElem?_eq_some_iff.mp h
    rw [List.length_singleton] at hlt
    exact Or.inr ⟨by omega, by simpa using heq.symm⟩

/-- The version of a proposal is that of an entry, or of none. -/
theorem Proposed.version (hlog : log.entries = chosen.map MemberEntry.toSystemEntry) {k : Nat} {p : MemberProposal}
    (hp : Proposed chosen k p) : p.change.version = noVersion ∨
      ∃ (j : Nat) (e : SystemEntry), j < k ∧ log.entries[j]? = some e ∧ p.change.version = e.instanceID := by
  have hentry {k₁ : Nat} (hk₁ : k₁ ≤ k) {v : SystemVariables} (hv : written (chosen.take k₁) = some v) :
      ∃ (j : Nat) (e : SystemEntry), j < k ∧ log.entries[j]? = some e ∧ v.version = e.instanceID := by
    rw [← written_take hlog] at hv
    obtain ⟨-, j, e, hj, he⟩ := SystemLog.written_some hv
    exact ⟨j, e, hj.trans_le hk₁, he⟩
  obtain ⟨-, hmade⟩ := hp
  cases hop : p.op with
  | some op =>
    rw [hop] at hmade
    obtain ⟨k₁, k₂, v₁, v₂, h₁₂, h₂, hv₁, -, hversion, -⟩ := hmade
    rw [hversion]
    exact Or.inr (hentry (h₁₂.trans h₂) hv₁)
  | none =>
    rw [hop] at hmade
    obtain ⟨k₁, hk₁, hversion, -⟩ := hmade
    cases hv : written (chosen.take k₁) with
    | none =>
      rw [hv] at hversion
      exact Or.inl hversion
    | some v =>
      rw [hv] at hversion
      rw [show p.change.version = v.version from hversion]
      exact Or.inr (hentry hk₁ hv)

/-- A log of proposals takes another one. -/
theorem Proposed.extend (hlog : log.entries = chosen.map MemberEntry.toSystemEntry) {p : MemberProposal}
    (hp : Proposed chosen chosen.length p) {i : Nat} (hi : ∀ e ∈ chosen, e.instanceID < i) (hlt : i < noVersion) :
    ∃ log' : SystemLog (.protobuf []), log'.entries = (chosen ++ [MemberEntry.mk i p]).map MemberEntry.toSystemEntry := by
  have hlen : log.entries.length = chosen.length := by rw [hlog, List.length_map]
  have hold {k : Nat} {e : SystemEntry} (he : log.entries[k]? = some e) : k < chosen.length ∧ e.instanceID < i := by
    have hk := (List.getElem?_eq_some_iff.mp he).1
    rw [hlog, List.getElem?_map] at he
    obtain ⟨e₀, he₀, rfl⟩ := Option.map_eq_some_iff.mp he
    exact ⟨hlen ▸ hk, hi e₀ (List.mem_of_getElem? he₀)⟩
  refine ⟨⟨log.entries ++ [MemberEntry.toSystemEntry ⟨i, p⟩], ?_, ?_, ?_⟩, ?_⟩
  · intro k j e e' hkj he he'
    rcases getElem?_snoc he with he | ⟨rfl, rfl⟩
    · rcases getElem?_snoc he' with he' | ⟨rfl, rfl⟩
      · exact log.increasing hkj he he'
      · exact (hold he).2
    · rcases getElem?_snoc he' with he' | ⟨rfl, rfl⟩
      · have hj := (hold he').1
        omega
      · omega
  · intro k e he
    rcases getElem?_snoc he with he | ⟨rfl, rfl⟩
    · exact log.lt_noVersion he
    · exact hlt
  · intro k e he
    have hin {j : Nat} {e' : SystemEntry} (he' : log.entries[j]? = some e') :
        (log.entries ++ [MemberEntry.toSystemEntry ⟨i, p⟩])[j]? = some e' := by
      rw [List.getElem?_append_left (hlen ▸ (hold he').1), he']
    rcases getElem?_snoc he with he | ⟨rfl, rfl⟩
    · obtain ⟨v, hv, hgid, hversion⟩ := log.change he
      refine ⟨v, hv, hgid, hversion.imp_right ?_⟩
      rintro ⟨j, e', hj, he', hv'⟩
      exact ⟨j, e', hj, hin he', hv'⟩
    · refine ⟨p.change, parse_serializeSystemVariables _, hp.1, (hp.version hlog).imp_right ?_⟩
      rintro ⟨j, e', hj, he', hv'⟩
      exact ⟨j, e', hlen ▸ hj, hin he', hv'⟩
  · rw [List.map_append, ← hlog]
    rfl

/-! ## Every run -/

variable {config : NodeID → Config} {s : MemberGroup κ}

/-- The nodes hold what they have reached of the log, and what was read, proposed and chosen comes from there. -/
structure Sound (config : NodeID → Config) (s : MemberGroup κ) : Prop where
  log : ∃ log : SystemLog (.protobuf []), log.entries = s.chosen.map MemberEntry.toSystemEntry ∧ ∀ n,
    (log.replicated config).Within (fun n k r => log.Holds (config n).nodeInfoList k r) n (s.replicas n)
  calls : ∀ n t, CallOk s.chosen (s.replicas n).reached (s.calls n t)
  proposals : ∀ p ∈ s.proposals, Proposed s.chosen s.chosen.length p
  chosen : ∀ k e, s.chosen[k]? = some e → Proposed s.chosen k e.proposal

omit [DecidableEq κ] in
theorem sound_start : Sound config (start config : MemberGroup κ) where
  log := ⟨⟨[], by simp, by simp, by simp⟩, rfl, fun n => ⟨.fresh (config n), le_rfl, Nat.zero_le _⟩⟩
  calls _ _ := trivial
  proposals _ hp := by cases hp
  chosen _ _ he := by cases he

omit [DecidableEq κ] in
/-- What a node has in memory. -/
theorem Sound.vsm (h : Sound config s) (n : NodeID) : s.vsm n =
    SystemVSM.init (written (s.chosen.take (s.replicas n).reached)) (config n).nodeInfoList := by
  obtain ⟨log, hlog, hreplicas⟩ := h.log
  rw [MemberGroup.vsm, (hreplicas n).1.vsm, written_take hlog]

omit [DecidableEq κ] in
theorem Sound.reached_le (h : Sound config s) (n : NodeID) : (s.replicas n).reached ≤ s.chosen.length := by
  obtain ⟨log, hlog, hreplicas⟩ := h.log
  have hle := (hreplicas n).2.2
  rwa [show (log.replicated config).length = log.entries.length from rfl, hlog, List.length_map] at hle

/-- A call moves. -/
theorem Sound.goTo (h : Sound config s) {n : NodeID} {t : κ} {c : MemberCall} (hc : CallOk s.chosen (s.replicas n).reached c) :
    Sound config (s.goTo n t c) where
  log := h.log
  calls m t' := by
    by_cases hm : m = n
    · subst hm
      simp only [MemberGroup.goTo, Function.update_self]
      by_cases ht : t' = t
      · subst ht
        simpa only [Function.update_self] using hc
      · simpa only [Function.update_of_ne ht] using h.calls m t'
    · simpa only [MemberGroup.goTo, Function.update_of_ne hm] using h.calls m t'
  proposals := h.proposals
  chosen := h.chosen

omit [DecidableEq κ] in
theorem Sound.propose (h : Sound config s) {p : MemberProposal} (hp : Proposed s.chosen s.chosen.length p) :
    Sound config { s with proposals := p :: s.proposals } where
  log := h.log
  calls := h.calls
  proposals q hq := by
    rcases List.mem_cons.mp hq with rfl | hq
    · exact hp
    · exact h.proposals q hq
  chosen := h.chosen

omit [DecidableEq κ] in
/-- The log grows: what was seen of it stays. -/
theorem Sound.choose (h : Sound config s) (i : Nat) (p : MemberProposal) : Sound config (s.choose i p) := by
  unfold MemberGroup.choose
  split
  case isTrue hchoose =>
    obtain ⟨hp, hi, hlt⟩ := hchoose
    obtain ⟨log, hlog, hreplicas⟩ := h.log
    obtain ⟨log', hlog'⟩ := (h.proposals p hp).extend hlog hi hlt
    refine ⟨⟨log', hlog', fun n => ?_⟩, fun n t => (h.calls n t).append (h.reached_le n) _, fun q hq => ?_, fun k e he => ?_⟩
    · obtain ⟨hholds, hnext, hreached⟩ := hreplicas n
      have hsame : log'.written (s.replicas n).reached = log.written (s.replicas n).reached := by
        rw [written_take hlog', written_take hlog, take_append (h.reached_le n)]
      refine ⟨⟨hholds.stored.trans hsame.symm, by rw [hsame]; exact hholds.vsm, hholds.nodeInfoList⟩, hnext, ?_⟩
      change _ ≤ log'.entries.length
      rw [hlog', List.length_map, List.length_append]
      exact (h.reached_le n).trans (Nat.le_add_right _ _)
    · have hall := (h.proposals q hq).append le_rfl [⟨i, p⟩]
      exact hall.mono (by rw [List.length_append]; exact Nat.le_add_right _ _)
    · rcases getElem?_snoc he with he | ⟨rfl, rfl⟩
      · exact (h.chosen k e he).append (List.getElem?_eq_some_iff.mp he).1.le _
      · exact (h.proposals p hp).append le_rfl _
  case isFalse => exact h

omit [DecidableEq κ] in
/-- A node moves along the log, and never back behind what it has reached. -/
theorem Sound.replicas (h : Sound config s) {s' : MemberGroup κ} (hchosen : s'.chosen = s.chosen)
    (hproposals : s'.proposals = s.proposals) (hcalls : s'.calls = s.calls)
    (hstep : ∀ log : SystemLog (.protobuf []), log.entries = s.chosen.map MemberEntry.toSystemEntry →
      (log.replicated config).Step s.replicas s'.replicas) : Sound config s' := by
  obtain ⟨log, hlog, hreplicas⟩ := h.log
  have hfollows := (hstep log hlog).follows
    (SystemLog.follows parse_serializeSystemVariables serializeSystemVariables_ne_nil config) hreplicas
  refine ⟨⟨log, hchosen ▸ hlog, fun n => (hfollows n).1⟩, fun n t => ?_, ?_, ?_⟩
  · rw [hchosen, hcalls]
    exact (h.calls n t).mono (hfollows n).2
  · rw [hchosen, hproposals]
    exact h.proposals
  · rw [hchosen]
    exact h.chosen

theorem Sound.exec (h : Sound config s) (n : NodeID) (t : Option κ) : Sound config (s.exec n t) := by
  unfold MemberGroup.exec
  dsimp only
  cases he : s.chosen[(s.replicas n).next]? with
  | none => exact h
  | some e =>
    have hlt := (List.getElem?_eq_some_iff.mp he).1
    have hmove : Sound config
        { s with
          replicas := Function.update s.replicas n
            ⟨(s.replicas n).state.execute (.protobuf []) e.instanceID (serializeSystemVariables e.proposal.change),
              (s.replicas n).next + 1, max (s.replicas n).reached ((s.replicas n).next + 1)⟩ } := by
      refine h.replicas rfl rfl rfl fun log hlog => .exec ?_ ⟨e.toSystemEntry, ?_, rfl⟩
      · change _ < log.entries.length
        rwa [hlog, List.length_map]
      · rw [hlog, List.getElem?_map, he, Option.map_some]
    cases t with
    | none => exact hmove
    | some t =>
      dsimp only
      split
      case isTrue hcall =>
        refine hmove.goTo ?_
        obtain ⟨log, hlog, -⟩ := h.log
        cases hret : (s.vsm n).smret e.proposal.change with
        | ok =>
          refine ⟨(s.replicas n).next, e, he, rfl, ?_⟩
          rw [h.vsm n, ← hcall.2] at hret
          have happly := smret_eq_ok hret e.instanceID
          rw [SystemVSM.init_applies _ _ []] at happly
          obtain ⟨v', hv'⟩ := Option.ne_none_iff_exists'.mp happly
          exact (h.chosen _ e he).accepted hlog he hv'
        | _ => trivial
      case isFalse => exact hmove

omit [DecidableEq κ] in
theorem Sound.restart (h : Sound config s) (n : NodeID) (next : Nat) : Sound config (s.restart n next) := by
  unfold MemberGroup.restart
  dsimp only
  split
  case isTrue hnext =>
    have hmove : Sound config
        { s with replicas := Function.update s.replicas n ⟨(s.replicas n).state.restart, next, (s.replicas n).reached⟩ } :=
      h.replicas rfl rfl rfl fun log hlog => .restart rfl hnext
    refine ⟨hmove.log, fun m t => ?_, hmove.proposals, hmove.chosen⟩
    by_cases hm : m = n
    · subst hm
      simp only [Function.update_self]
      trivial
    · have hcall := hmove.calls m t
      simpa only [Function.update_of_ne hm] using hcall
  case isFalse => exact h

omit [DecidableEq κ] in
theorem Sound.adopt (h : Sound config s) (n m : NodeID) (next : Nat) : Sound config (s.adopt n m next) := by
  unfold MemberGroup.adopt
  dsimp only
  split
  case isTrue hnext => exact h.replicas rfl rfl rfl fun log hlog => .adopt rfl hnext
  case isFalse => exact h

theorem Sound.step (h : Sound config s) (e : Event κ) : Sound config (s.step e) := by
  obtain ⟨log, hlog, -⟩ := h.log
  cases e with
  | call n t op =>
    simp only [MemberGroup.step, MemberGroup.call]
    split
    · exact h.goTo trivial
    · exact h.goTo trivial
    · exact h
  | read n t =>
    refine h.goTo ?_
    rw [h.vsm n]
    exact (h.calls n t).read hlog _
  | newValue n t =>
    simp only [MemberGroup.step, MemberGroup.newValue]
    split
    case h_1 p hcall =>
      have hp := h.calls n t
      rw [hcall] at hp
      exact h.propose (hp.mono (h.reached_le n))
    case h_2 => exact h
  | createGid n gid =>
    simp only [MemberGroup.step, MemberGroup.createGid]
    split
    · exact h
    case isFalse hgid =>
      rw [h.vsm n]
      exact h.propose ((proposed_createGid hlog hgid _).mono (h.reached_le n))
  | choose i p => exact h.choose i p
  | exec n t => exact h.exec n t
  | commitFail n t ret =>
    simp only [MemberGroup.step, MemberGroup.commitFail]
    split
    · exact h.goTo trivial
    · exact h
  | restart n next => exact h.restart n next
  | adopt n m next => exact h.adopt n m next

theorem Reachable.sound (h : Reachable config s) : Sound config s := by
  induction h with
  | start => exact sound_start
  | step e _ ih => exact ih.step e

/-- **No change of the membership is lost.** -/
theorem Reachable.no_lost_update (h : Reachable config s) :
    (∀ k e, s.chosen[k]? = some e →
      Accepted s.chosen k e ∨ written (s.chosen.take (k + 1)) = written (s.chosen.take k)) ∧
    (∀ n t p, s.calls n t = .returned (some p) .ok →
      ∃ k e, s.chosen[k]? = some e ∧ e.proposal = p ∧ Accepted s.chosen k e) ∧
    ∀ n, (s.replicas n).reached ≤ s.chosen.length ∧
      (s.replicas n).state.stored = written (s.chosen.take (s.replicas n).reached) ∧
      s.vsm n = SystemVSM.init (written (s.chosen.take (s.replicas n).reached)) (config n).nodeInfoList := by
  have hsound := h.sound
  obtain ⟨log, hlog, hreplicas⟩ := hsound.log
  refine ⟨fun k e he => (hsound.chosen k e he).accepted_or_same hlog he, fun n t p hcall => ?_, fun n => ?_⟩
  · have hok := hsound.calls n t
    rw [hcall] at hok
    exact hok
  · exact ⟨hsound.reached_le n, by rw [(hreplicas n).1.stored, written_take hlog], hsound.vsm n⟩

theorem Reachable.steps (es : List (Event κ)) (h : Reachable config s) : Reachable config (es.foldl (fun s e => s.step e) s) := by
  induction es generalizing s with
  | nil => exact h
  | cons e es ih => exact ih (h.step e)

/-- Nodes 1 and 2 change the membership at once: node 1 adds a member and node 2 removes itself. -/
def twoChanges : List (Event Unit) :=
  [.createGid 1 7, .choose 5 ⟨none, ⟨7, [1, 2], noVersion⟩⟩, .exec 1 none, .exec 2 none, .call 1 () (.addMember 3),
    .call 2 () (.removeMember 2), .read 1 (), .read 2 (), .read 1 (), .read 2 (), .read 1 (), .read 2 (), .read 1 (), .read 2 (),
    .newValue 1 (), .newValue 2 (), .choose 9 ⟨some (.addMember 3), ⟨7, [1, 2, 3], 5⟩⟩,
    .choose 12 ⟨some (.removeMember 2), ⟨7, [1], 5⟩⟩, .exec 2 none, .exec 2 (some ()), .exec 1 (some ())]

def twoNodes (n : NodeID) : Config := ⟨n, false, nullnode, true, [1, 2], SystemVSM.init none [1, 2], ∅, ∅⟩

/-- Only the change of node 1 is made. -/
theorem no_lost_update_twoChanges :
    let s := twoChanges.foldl (fun s e => s.step e) (start twoNodes)
    written s.chosen = some ⟨7, [1, 2, 3], 9⟩ ∧
    s.calls 2 () = .returned (some ⟨some (.removeMember 2), ⟨7, [1], 5⟩⟩) .versionConflit ∧
    ∃ k e, s.chosen[k]? = some e ∧ e.proposal = ⟨some (.addMember 3), ⟨7, [1, 2, 3], 5⟩⟩ ∧ Accepted s.chosen k e := by
  refine ⟨by decide +kernel, by decide +kernel, ?_⟩
  have hstart : Reachable twoNodes (start twoNodes : MemberGroup Unit) := .start
  have h := Reachable.no_lost_update (hstart.steps twoChanges)
  exact h.2.1 1 () ⟨some (.addMember 3), ⟨7, [1, 2, 3], 5⟩⟩ (by decide +kernel)

end MemberGroup
end PhxPaxos
