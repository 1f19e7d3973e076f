import PhxPaxos.Model.Node

/-!
# Membership operations

`PNode::AddMember`, `RemoveMember` and `ChangeMember`: each reads the membership of its node, computes the list of nodes
afterwards and proposes it with the version that it read. No lock is held over the reads, so a call is taken apart into the
points between them (`MemberCall`): the state machine may execute other changes at each of these.
-/

namespace PhxPaxos

/-- What the membership operations return. -/
inductive MembershipRet
  | ok
  | systemError
  | gidNotSame
  | versionConflit
  | noGid
  | addNodeExist
  | removeNodeNotExist
  | changeNoChange
  | commit (ret : PaxosTryCommitRet)
deriving DecidableEq

/-! ## The lists -/

def addMember (node : NodeID) (nodeInfoList : List NodeID) : Except MembershipRet (List NodeID) :=
  if node ∈ nodeInfoList then .error .addNodeExist else .ok (nodeInfoList ++ [node])

def removeMember (node : NodeID) (nodeInfoList : List NodeID) : Except MembershipRet (List NodeID) :=
  let afterNodeInfoList := nodeInfoList.filter (· ≠ node)
  if node ∉ nodeInfoList then .error .removeNodeNotExist else .ok afterNodeInfoList

def changeMember (fromNode toNode : NodeID) (nodeInfoList : List NodeID) : Except MembershipRet (List NodeID) :=
  let afterNodeInfoList := nodeInfoList.filter fun node => node ≠ fromNode ∧ node ≠ toNode
  let fromNodeExist := fromNode ∈ nodeInfoList
  let toNodeExist := toNode ≠ fromNode ∧ toNode ∈ nodeInfoList
  if ¬ fromNodeExist ∧ toNodeExist then .error .changeNoChange else .ok (afterNodeInfoList ++ [toNode])

inductive MembershipOp
  | addMember (node : NodeID)
  | removeMember (node : NodeID)
  | changeMember (fromNode toNode : NodeID)
deriving DecidableEq

/-- The list that an operation proposes where it reads `nodeInfoList`. -/
def MembershipOp.afterNodeInfoList : MembershipOp → List NodeID → Except MembershipRet (List NodeID)
  | addMember node => PhxPaxos.addMember node
  | removeMember node => PhxPaxos.removeMember node
  | changeMember fromNode toNode => PhxPaxos.changeMember fromNode toNode

/-! ## The values -/

/-- `SystemVSM::Membership_OPValue` -/
def SystemVSM.membershipOPValue (nodeInfoList : List NodeID) (version : Nat) (vsm : SystemVSM) : SystemVariables where
  gid := vsm.systemVariables.gid
  memberShip := nodeInfoList
  version := version

/-- `SystemVSM::CreateGid_OPValue` -/
def SystemVSM.createGidOPValue (gid : Nat) (vsm : SystemVSM) : SystemVariables := { vsm.systemVariables with gid := gid }

/-- The `smret` that `SystemVSM::Execute` gives to the call whose value it executes. -/
def SystemVSM.smret (v : SystemVariables) (vsm : SystemVSM) : MembershipRet :=
  if vsm.systemVariables.gid ≠ 0 ∧ v.gid ≠ vsm.systemVariables.gid then .gidNotSame
  else if v.version ≠ vsm.systemVariables.version then .versionConflit
  else .ok

/-! ## The calls -/

/-- A value of the system state machine: the change, and the operation that it is for, if not for a new gid. -/
structure MemberProposal where
  op : Option MembershipOp
  change : SystemVariables
deriving DecidableEq

/-- Where a thread is in `AddMember`, `RemoveMember` or `ChangeMember`: before it reads the gid, the version, the membership,
the gid of its value, in `Propose`, or back from the call. -/
inductive MemberCall
  | idle
  | getGid (op : MembershipOp)
  | getVersion (op : MembershipOp)
  | getMembership (op : MembershipOp) (version : Nat)
  | opValue (op : MembershipOp) (version : Nat) (afterNodeInfoList : List NodeID)
  | propose (p : MemberProposal)
  | returned (p : Option MemberProposal) (ret : MembershipRet)
deriving DecidableEq

/-- The next read of a call, from the system variables as they are now. -/
def MemberCall.read (vsm : SystemVSM) : MemberCall → MemberCall
  | .getGid op => if vsm.systemVariables.gid = 0 then .returned none .noGid else .getVersion op
  | .getVersion op => .getMembership op vsm.systemVariables.version
  | .getMembership op version =>
    match op.afterNodeInfoList vsm.systemVariables.memberShip with
    | .error ret => .returned none ret
    | .ok afterNodeInfoList => .opValue op version afterNodeInfoList
  | .opValue op version afterNodeInfoList => .propose ⟨some op, vsm.membershipOPValue afterNodeInfoList version⟩
  | c => c

end PhxPaxos
