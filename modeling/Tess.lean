import Tess.Effects.Transactions
import Tess.Effects.Sessions
import Tess.Effects.Threads
import Tess.Files.Disk
import Tess.Install.Blocks
import Tess.Install.Stack
import Tess.Install.Safety
import Tess.Enroll.Replace
import Tess.Enroll.CredentialFirst
import Tess.Enroll.Primitives
import Tess.Lifecycle.Calls
import Tess.Lifecycle.NoLockout
import Tess.Lifecycle.Clear
import Tess.Lifecycle.Unenroll
import Tess.Lifecycle.Resume
import Tess.Lifecycle.Reseal
import Tess.Enroll.Failures
import Tess.Concurrent.NoLockout
import Tess.Install.Effective
import Tess.Install.Outcome
import Tess.Install.Pam
import Tess.Install.Detect
import Tess.Install.RoundTrip
import Tess.Enroll.RecoveryText
import Tess.Lifecycle.RecoveryBlob
import Tess.Lifecycle.SealedObject
import Tess.Lifecycle.SessionUnlock
import Tess.Lifecycle.DryRun
import Tess.Pam.Helper
import Tess.Tpm.Sealer
import Tess.Tpm.Random
import Tess.Pam.Gates
import Tess.Mug.Emitter
import Tess.Mug.Vote
import Tess.Mug.Buffers
import Tess.Mug.Agreement
import Tess.Mug.Relief
import Tess.Mug.Angles
import Tess.Mug.FaceTest
import Tess.Mug.Faces
import Tess.Mug.Warmup
import Tess.Mug.Sampling
import Tess.Fprint.Client
import Tess.Mug.Enrolled
import Tess.Login.Custody
import Tess.Tpm.Reaped
