import Cosmwasgo.Lib.Program
import Cosmwasgo.Lib.Rules
import Cosmwasgo.Lib.Bytes
import Cosmwasgo.Lib.OrderedStore
import Cosmwasgo.Types.Errors
import Cosmwasgo.Types.Data
import Cosmwasgo.Types.Keys
import Cosmwasgo.Types.Messages
import Cosmwasgo.Types.Policies
import Cosmwasgo.State.World
import Cosmwasgo.State.Oracle
import Cosmwasgo.Keeper.Actions
import Cosmwasgo.Keeper.Lookup
import Cosmwasgo.Keeper.Query
import Cosmwasgo.Keeper.Registry
import Cosmwasgo.Keeper.Validation
import Cosmwasgo.Keeper.Contracts
import Cosmwasgo.Keeper.Modify
import Cosmwasgo.Keeper.Dispatcher
import Cosmwasgo.Keeper.MsgServer
import Cosmwasgo.Keeper.Relay
import Cosmwasgo.Keeper.Handlers
import Cosmwasgo.Runs.Meter
import Cosmwasgo.Runs.Local
import Cosmwasgo.Runs.Actions
import Cosmwasgo.Runs.Queries
import Cosmwasgo.Runs.Externals
import Cosmwasgo.Runs.Acts
import Cosmwasgo.Runs.Writes
import Cosmwasgo.Runs.Regime
import Cosmwasgo.Runs.Contracts
import Cosmwasgo.Runs.Operations
import Cosmwasgo.Runs.Messages
import Cosmwasgo.Runs.Tree
import Cosmwasgo.Runs.Dispatch
import Cosmwasgo.Properties.Gas
import Cosmwasgo.Lib.Bech32Text
import Cosmwasgo.Lib.Sha256
import Cosmwasgo.State.Devnet
import Cosmwasgo.Properties.Authorization
import Cosmwasgo.Properties.Replies
import Cosmwasgo.Runs.Simulation
import Cosmwasgo.Runs.SimulationTree
import Cosmwasgo.Properties.Reference
import Cosmwasgo.Runs.Steps
import Cosmwasgo.Runs.Roots
import Cosmwasgo.Properties.Ownership
import Cosmwasgo.Lib.Catalog
import Cosmwasgo.Registry.Records
import Cosmwasgo.Registry.Preservation
import Cosmwasgo.Registry.Iteration
import Cosmwasgo.Properties.Registry
import Cosmwasgo.Runs.Watch
import Cosmwasgo.Properties.Addresses
import Cosmwasgo.Properties.CallDepth
import Cosmwasgo.Keeper.IBC
import Cosmwasgo.Properties.Packets
import Cosmwasgo.Properties.Channels
import Cosmwasgo.Keeper.GasRegister
import Cosmwasgo.Properties.Answers
import Cosmwasgo.Properties.Charges
import Cosmwasgo.Properties.GasUnits
import Cosmwasgo.Properties.Iterators
import Cosmwasgo.Keeper.Ante
import Cosmwasgo.Properties.TxCounter
import Cosmwasgo.Keeper.Iteration
import Cosmwasgo.Properties.Isolation
import Cosmwasgo.Properties.History
import Cosmwasgo.Properties.Codes
import Cosmwasgo.Properties.Ports
import Cosmwasgo.Properties.QueryStack
import Cosmwasgo.Properties.Redaction
import Cosmwasgo.Keeper.Snapshotter
import Cosmwasgo.Runs.Unmetered
import Cosmwasgo.Properties.Snapshot
import Cosmwasgo.Properties.UploadParams
import Cosmwasgo.Keeper.Genesis
import Cosmwasgo.Registry.Import
import Cosmwasgo.Properties.Genesis
import Cosmwasgo.Properties.Deserialize
import Cosmwasgo.Properties.EventGas
import Cosmwasgo.Properties.GasConversion
import Cosmwasgo.Properties.SubQueries
import Cosmwasgo.Keeper.Querier
import Cosmwasgo.Properties.ReplyGas
import Cosmwasgo.Properties.HistoryPages
import Cosmwasgo.Migrations.V3
import Cosmwasgo.Properties.Permissions
import Cosmwasgo.Properties.Discounts
import Cosmwasgo.Properties.Pins
import Cosmwasgo.Keeper.Authz
import Cosmwasgo.Properties.Budgets
import Cosmwasgo.Registry.Export
import Cosmwasgo.Registry.Restore
import Cosmwasgo.Properties.AccessLists
import Cosmwasgo.Keeper.Encoders
import Cosmwasgo.Properties.Encoders
import Cosmwasgo.Keeper.IOUtils
import Cosmwasgo.Properties.HandlerChain
import Cosmwasgo.Properties.Propagation
import Cosmwasgo.Properties.Uncompress
import Cosmwasgo.Lib.Utf8
import Cosmwasgo.Keeper.CodeGrants
import Cosmwasgo.Properties.CodeGrants
import Cosmwasgo.Lib.GoJson
import Cosmwasgo.WasmVM.Responses
import Cosmwasgo.Properties.Responses
import Cosmwasgo.Properties.RoundTrip
import Cosmwasgo.Migrations.V1
import Cosmwasgo.Properties.Events
import Cosmwasgo.Properties.CreatorIndex
import Cosmwasgo.Keeper.Coins
import Cosmwasgo.Properties.Coins
import Cosmwasgo.Keeper.Pruner
import Cosmwasgo.Properties.Pruner
import Cosmwasgo.Properties.IBCQueries
import Cosmwasgo.Properties.CallerPort
import Cosmwasgo.Properties.Prediction
import Cosmwasgo.Keeper.AcceptList
import Cosmwasgo.Properties.AcceptList
import Cosmwasgo.Keeper.Proposals
import Cosmwasgo.Properties.Proposals
import Cosmwasgo.Keeper.Listings
import Cosmwasgo.Properties.CodeListings
import Cosmwasgo.Properties.ContractListings
import Cosmwasgo.Properties.StateListings
import Cosmwasgo.Keeper.LegacyProposals
import Cosmwasgo.Properties.Ledger
import Cosmwasgo.Properties.LegacyProposals
