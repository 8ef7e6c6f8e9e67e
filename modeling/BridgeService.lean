import BridgeService.Autoclaim.ClaimGrouped
import BridgeService.Bridgectrl.FailedLeaves
import BridgeService.Bridgectrl.FailedReads
import BridgeService.Claimtxman.CompressFailure
import BridgeService.Claimtxman.DistinctNonces
import BridgeService.Claimtxman.DroppedTxs
import BridgeService.Claimtxman.GroupMembers
import BridgeService.Claimtxman.GroupOutcome
import BridgeService.Claimtxman.Start
import BridgeService.Claimtxman.WaitingTxs
import BridgeService.Cmd.BackwardLETs
import BridgeService.Cmd.GerRemoval
import BridgeService.Cmd.Isolation
import BridgeService.Cmd.OpenTxs
import BridgeService.Cmd.ReorgReadiness
import BridgeService.Cmd.StableProofs
import BridgeService.Cmd.VerifiedRoots
import BridgeService.Storage.Pages
import BridgeService.Synchronizer.Atomicity
import BridgeService.Synchronizer.Completion
import BridgeService.Synchronizer.Coverage
import BridgeService.Synchronizer.ForkPoint
import BridgeService.Synchronizer.LETEvents
import BridgeService.Synchronizer.LatestLeaves
import BridgeService.Synchronizer.Numbering
import BridgeService.Synchronizer.OldClaims
import BridgeService.Synchronizer.SplitBlocks
import BridgeService.Synchronizer.SyncStatus
