import OnDemand.Base.Era
import OnDemand.Primitives.KeyNamespaces
import OnDemand.Pallet.Authenticity
import OnDemand.Pallet.Effect
import OnDemand.Pallet.Claims
import OnDemand.Pallet.ParaId
import OnDemand.Pallet.SlotWidth
import OnDemand.Service.Config
import OnDemand.Service.Rotation
import OnDemand.Service.SlotArithmetic
import OnDemand.Service.Chain
import OnDemand.Service.Follower
import OnDemand.Service.Node
import OnDemand.Service.Locking
import OnDemand.Service.Network
import OnDemand.Service.Gating
import OnDemand.Service.Record
import OnDemand.Service.Provider
import OnDemand.Service.Reconfiguration
import OnDemand.Service.Reward
import OnDemand.Service.Extrinsic
import OnDemand.Service.Criteria
import OnDemand.Service.Liveness
import OnDemand.Service.Isolation
import OnDemand.Service.Stream
import OnDemand.Client.Basic
import OnDemand.Client.Consensus
import OnDemand.System
import OnDemand.Runtime.Presets
