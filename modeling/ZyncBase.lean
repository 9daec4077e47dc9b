import ZyncBase.Storage.BatchAtomicity
import ZyncBase.Storage.CacheRace
import ZyncBase.Storage.FlushCuts
import ZyncBase.Presence.SharedConvergence
import ZyncBase.Presence.Ownership
import ZyncBase.Migration.Conforming
import ZyncBase.Migration.IndexNames
import ZyncBase.Authorization.Membership
import ZyncBase.Authorization.PayloadSafety
import ZyncBase.Actions.ForwardOrder
import ZyncBase.Actions.PendingCounts
import ZyncBase.Actions.Staging
import ZyncBase.Store.BatchStates
import ZyncBase.Sdk.StoreWire
import ZyncBase.Sdk.PresenceBroadcasts
import ZyncBase.Memory.CacheAnswers
import ZyncBase.Subscription.KeyLaws
import ZyncBase.Storage.StatementCache
import ZyncBase.Storage.LinkedStatements
import ZyncBase.Memory.IndexPool
import ZyncBase.Storage.StatementBindings
import ZyncBase.Storage.CreationTimes
import ZyncBase.Authentication.TicketRoundTrip
import ZyncBase.Queues.MpscDelivery
import ZyncBase.Connection.LockDiscipline
import ZyncBase.Connection.RateLimits
import ZyncBase.Storage.PointLookups
import ZyncBase.Store.RepeatedFields
import ZyncBase.Json.ArrayColumns
import ZyncBase.Query.CursorBytes
import ZyncBase.Connection.SendDrain
import ZyncBase.Memory.CacheBatches
import ZyncBase.Subscription.DeltaBytes
import ZyncBase.Presence.FailedDrains
import ZyncBase.Presence.Rollback
import ZyncBase.Subscription.FailedSubscribes
import ZyncBase.Subscription.ErrorAnswers
import ZyncBase.Authentication.TimeClaims
import ZyncBase.Wire.Messages
import ZyncBase.Sdk.PresenceThrottle
import ZyncBase.Sdk.DictionaryRecords
import ZyncBase.Sdk.LoadedPages
import ZyncBase.Sdk.ViewOrder
import ZyncBase.Subscription.ChangeShards
import ZyncBase.Authorization.Namespaces
import ZyncBase.Query.Folding
import ZyncBase.Store.Guarding
