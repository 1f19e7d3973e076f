import PhxPaxos.Recovery.Promises
import PhxPaxos.Recovery.Replay
import PhxPaxos.StateMachines.MasterReads
import PhxPaxos.StateMachines.SystemVariables
import PhxPaxos.Safety.Agreement
import PhxPaxos.Safety.Executed
import PhxPaxos.StateMachines.Executions
import PhxPaxos.Recovery.Cleaner
import PhxPaxos.Recovery.Readable
import PhxPaxos.Recovery.Start
import PhxPaxos.Storage.Failures
import PhxPaxos.Storage.LostIndex
import PhxPaxos.Transport.MessageSize
import PhxPaxos.Transport.Framing
import PhxPaxos.Batches.Answers
import PhxPaxos.Batches.Index
import PhxPaxos.Batches.Sizes
import PhxPaxos.Storage.FilePath
import PhxPaxos.Timers.Commit
import PhxPaxos.Abstract.Alarms
import PhxPaxos.Model.TimerLoop
import PhxPaxos.Timers.Order
import PhxPaxos.Recovery.Evidence
import PhxPaxos.Recovery.Pace
import PhxPaxos.Storage.Corruption
import PhxPaxos.Commits.Results
import PhxPaxos.Commits.WaitLock
import PhxPaxos.StateMachines.Membership
import PhxPaxos.Transport.CheckpointTransfer
import PhxPaxos.Recovery.Replayer
import PhxPaxos.Safety.Replayed
import PhxPaxos.StateMachines.KeyValue
import PhxPaxos.Progress.Rounds
