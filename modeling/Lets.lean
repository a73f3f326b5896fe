import Lets.ExecutorAuthority
import Lets.Degraded
import Lets.RemoteSpawning
import Lets.Crediting
import Lets.PeerQueue
import Lets.Draining
import Lets.ResidualTotal
import Lets.Renewing
import Lets.TaskAdmission
import Lets.CatchingUp
import Lets.DeliveryHeads
import Lets.Evidence
import Lets.ManifestSignatures
import Lets.VectorEncoding
import Lets.AuditExport
import Lets.MachineRuns
import Lets.Permanence
import Lets.Spending
