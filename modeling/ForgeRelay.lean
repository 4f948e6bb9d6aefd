import ForgeRelay.Delivery.Timeline
import ForgeRelay.Identifier
import ForgeRelay.Main
import ForgeRelay.Webhook.Download
import ForgeRelay.Proofs.Delivery.Stream
import ForgeRelay.Proofs.Credential.Snapshot
import ForgeRelay.Proofs.Webhook.Wire
import ForgeRelay.Proofs.Delivery.Moves
import ForgeRelay.Proofs.Delivery.Backlog
import ForgeRelay.Proofs.Delivery.Shutdown
import ForgeRelay.Proofs.Webhook.Publishing
import ForgeRelay.Proofs.Json.Values
import ForgeRelay.Proofs.Webhook.Consuming
import ForgeRelay.Proofs.Delivery.Settling
import ForgeRelay.Proofs.Identifier.FixedNames
import ForgeRelay.Proofs.Delivery.Consistency
import ForgeRelay.Proofs.Relay.Wiring
import ForgeRelay.Proofs.Delivery.SoleSource
import ForgeRelay.Proofs.Relay.Carrying
import ForgeRelay.Proofs.Credential.Overlap
import ForgeRelay.Proofs.Duration
import ForgeRelay.Proofs.Webhook.Signing
import ForgeRelay.Proofs.Delivery.Written
import ForgeRelay.Proofs.Delivery.FirstViolation
import ForgeRelay.Proofs.Webhook.Headers
import ForgeRelay.Proofs.Identifier.Labels
import ForgeRelay.Proofs.Identifier.Characters
import ForgeRelay.Proofs.Chains
import ForgeRelay.Proofs.Codec.Base64
import ForgeRelay.Proofs.Credential.Decoding
import ForgeRelay.Proofs.Credential.Holdings
import ForgeRelay.Proofs.Json.Slots
import ForgeRelay.Proofs.Webhook.Paths
import ForgeRelay.Proofs.Webhook.Downloading
import ForgeRelay.Proofs.Webhook.Requests
