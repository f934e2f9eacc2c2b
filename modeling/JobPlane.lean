import JobPlane.Cluster.Scripted
import JobPlane.ControlPlane.Holdings
import JobPlane.Frame.Writer
import JobPlane.Local.Cluster
import JobPlane.Log.Transcript
import JobPlane.Main
import JobPlane.Proofs.ControlPlane.FailedRun
import JobPlane.Proofs.ControlPlane.Listing
import JobPlane.Proofs.ControlPlane.Overheard
import JobPlane.Proofs.ControlPlane.Tailing
import JobPlane.Proofs.ControlPlane.Withdrawal
import JobPlane.Proofs.Frame.Deserted
import JobPlane.Proofs.Frame.Division
import JobPlane.Proofs.Http.Accept
import JobPlane.Proofs.Http.Switch
import JobPlane.Proofs.Image.Canonical
import JobPlane.Proofs.Job.Environment
import JobPlane.Proofs.Job.Record
import JobPlane.Proofs.Local.Container
import JobPlane.Proofs.Local.FirstOutput
import JobPlane.Proofs.Local.GivingUp
import JobPlane.Proofs.Local.Lifecycle
import JobPlane.Proofs.Local.Owner
import JobPlane.Proofs.Local.Registration
import JobPlane.Proofs.Log.Body
import JobPlane.Proofs.Log.Completion
import JobPlane.Proofs.Log.Sharing
import JobPlane.Proofs.Log.Text
import JobPlane.Proofs.Placement
import JobPlane.Proofs.Request.Run
import JobPlane.Proofs.Stream.GivingUp
import JobPlane.Service
