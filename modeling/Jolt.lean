import Jolt.Authority.Accepted
import Jolt.Core.AddressText
import Jolt.Network.Adoption
import Jolt.Network.Convergence
import Jolt.Network.Ingress
import Jolt.Network.PersistenceWorker
import Jolt.Network.Poisoning
import Jolt.Network.Progress
import Jolt.Network.QueryFlood
import Jolt.Network.RelayExchange
import Jolt.Network.Renewal
import Jolt.Network.Revocation
import Jolt.Network.SnapshotIndex
import Jolt.Network.SyncRetries
import Jolt.Publishing.CommonBase
import Jolt.Publishing.Crashes
import Jolt.Publishing.KeptEntries
import Jolt.Publishing.SigningOracle
import Jolt.Sdk.Apps
import Jolt.Sdk.GetOrCreate
import Jolt.Sdk.MigrationRenames
import Jolt.Sdk.SubscriptionStates
import Jolt.Sdk.Subscriptions
import Jolt.Server.Confinement
import Jolt.Server.EndedStreams
import Jolt.Server.IdentityRecovery
import Jolt.Server.LiveSubscriptions
import Jolt.Server.SessionDurability
import Jolt.Updates.Chains
import Jolt.Network.PageBudget
