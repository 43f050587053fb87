import NeuroMesh.Cell.TelemetryQueue
import NeuroMesh.Common.Base64.Canonical
import NeuroMesh.Common.StateJournal.Line
import NeuroMesh.Common.StateJournal.Rotation
import NeuroMesh.Consensus.Mesh.Safety
import NeuroMesh.Consensus.MeshNode.Lemmas.Arrival
import NeuroMesh.Consensus.MeshNode.Lemmas.Audit
import NeuroMesh.Consensus.MeshNode.Lemmas.Bans
import NeuroMesh.Consensus.MeshNode.Lemmas.Beacon
import NeuroMesh.Consensus.MeshNode.Lemmas.Binding
import NeuroMesh.Consensus.MeshNode.Lemmas.Decision
import NeuroMesh.Consensus.MeshNode.Lemmas.DualPath
import NeuroMesh.Consensus.MeshNode.Lemmas.Effects
import NeuroMesh.Consensus.MeshNode.Lemmas.Framing
import NeuroMesh.Consensus.MeshNode.Lemmas.Freshness
import NeuroMesh.Consensus.MeshNode.Lemmas.Guard
import NeuroMesh.Consensus.MeshNode.Lemmas.Ipc
import NeuroMesh.Consensus.MeshNode.Lemmas.Layouts
import NeuroMesh.Consensus.MeshNode.Lemmas.Malformed
import NeuroMesh.Consensus.MeshNode.Lemmas.Membership
import NeuroMesh.Consensus.MeshNode.Lemmas.Order
import NeuroMesh.Consensus.MeshNode.Lemmas.Pins
import NeuroMesh.Consensus.MeshNode.Lemmas.Restart
import NeuroMesh.Consensus.MeshNode.Lemmas.RoundKind
import NeuroMesh.Consensus.MeshNode.Lemmas.SelfBan
import NeuroMesh.Consensus.MeshNode.Lemmas.Signing
import NeuroMesh.Consensus.MeshNode.Lemmas.Targeted
import NeuroMesh.Consensus.MeshNode.Lemmas.Tls
import NeuroMesh.Consensus.MeshNode.Lemmas.Webhook
import NeuroMesh.Consensus.MeshNode.Lemmas.Wire
import NeuroMesh.Consensus.PBFT.Lemmas.Chain
import NeuroMesh.Consensus.PBFT.Lemmas.Dedup
import NeuroMesh.Consensus.PBFT.Lemmas.Execute
import NeuroMesh.Consensus.PBFT.Lemmas.Rate
import NeuroMesh.Consensus.PBFT.Lemmas.Replay
import NeuroMesh.Consensus.PBFT.Lemmas.Sequence
import NeuroMesh.Consensus.PBFT.Lemmas.Silent
import NeuroMesh.Consensus.PBFT.Lemmas.Views
import NeuroMesh.Consensus.PBFT.Lemmas.VoteRegistry
import NeuroMesh.Consensus.PeerManager.Window
import NeuroMesh.Crypto.KeyManager.Coherence
import NeuroMesh.Crypto.ProofChain.Address
import NeuroMesh.Crypto.ProofChain.Binding
import NeuroMesh.Crypto.ProofChain.Coherence
import NeuroMesh.Crypto.ProofChain.Forgery
import NeuroMesh.Crypto.ProofChain.Tamper
import NeuroMesh.Enforcer.Lemmas.Isolated
import NeuroMesh.Enforcer.Lemmas.Kill
import NeuroMesh.Enforcer.Lemmas.Xdp
import NeuroMesh.Main.IpcListener
import NeuroMesh.Orchestration.ControlServer.Lemmas
import NeuroMesh.Telemetry.Observability.Audit
import NeuroMesh.Telemetry.Observability.Metrics
import NeuroMesh.Telemetry.Observability.Tracer
import NeuroMesh.Telemetry.TelemetryBridge.Lemmas
import NeuroMesh.Tools.TestProof.Lemmas
