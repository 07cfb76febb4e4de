import UpdateProtocol.Client.Exchange
import UpdateProtocol.Http.Endpoint
import UpdateProtocol.Policy
import UpdateProtocol.Proofs.Client.Renaming
import UpdateProtocol.Proofs.Client.Schedule
import UpdateProtocol.Proofs.Client.ServerUrl
import UpdateProtocol.Proofs.Client.Snapshot
import UpdateProtocol.Proofs.Document.Cut
import UpdateProtocol.Proofs.Document.Items
import UpdateProtocol.Proofs.Document.Rendered
import UpdateProtocol.Proofs.Exchange.Acknowledgement
import UpdateProtocol.Proofs.Exchange.Agreement
import UpdateProtocol.Proofs.Exchange.Delivery
import UpdateProtocol.Proofs.Exchange.Header
import UpdateProtocol.Proofs.Exchange.Reading
import UpdateProtocol.Proofs.Exchange.Refusal
import UpdateProtocol.Proofs.Exchange.Retrying
import UpdateProtocol.Proofs.Package.Download
import UpdateProtocol.Proofs.Settings.Saving
import UpdateProtocol.Proofs.Time.Window
