import GpuPlacement.Main
import GpuPlacement.Proofs.Transition
import GpuPlacement.Proofs.Contraction
import GpuPlacement.Proofs.Relaxation
import GpuPlacement.Proofs.Exchanges
import GpuPlacement.Proofs.TestMode
import GpuPlacement.Proofs.Agreement
import GpuPlacement.Proofs.Contracts
import GpuPlacement.Proofs.Broadcasts
import GpuPlacement.Proofs.Schema
import GpuPlacement.Proofs.Columns
import GpuPlacement.Proofs.Forecast
import GpuPlacement.Proofs.HeldBack
import GpuPlacement.Proofs.MasterSwitch
import GpuPlacement.Proofs.Fingerprint
import GpuPlacement.Proofs.Settling
import GpuPlacement.Proofs.KeptTypes
import GpuPlacement.Proofs.Session
import GpuPlacement.Proofs.Heeded
import GpuPlacement.Proofs.CastFloats
import GpuPlacement.Proofs.CastChains
import GpuPlacement.Proofs.CastTexts
import GpuPlacement.Proofs.Isolation
import GpuPlacement.Proofs.Passes
import GpuPlacement.Proofs.ReportLines
import GpuPlacement.Proofs.RuleSwitches
import GpuPlacement.Proofs.Signatures
import GpuPlacement.Proofs.ByteSizes
import GpuPlacement.Proofs.Rendering
import GpuPlacement.Proofs.Validation
import GpuPlacement.Proofs.SettingPaths
import GpuPlacement.Proofs.Layers
import GpuPlacement.Proofs.PlanDocuments
import GpuPlacement.Proofs.TypeNames
import GpuPlacement.Proofs.Registrations
import GpuPlacement.Proofs.Parity
