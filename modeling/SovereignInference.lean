import SovereignInference.SipPic.BlindRace
import SovereignInference.SipPic.SpentSetHistory
import SovereignInference.Python.Decimal
import SovereignInference.Python.DateTime
import SovereignInference.SipPic.ConcurrentRedemption
import SovereignInference.SipPic.StorageFailure
import SovereignInference.SipProtocol.SignatureTable
import SovereignInference.SipGateway.Delivery
import SovereignInference.SipProtocol.Signable
import SovereignInference.SipDiscovery.Directory
import SovereignInference.SipPic.IssuedCredits
import SovereignInference.SipProtocol.Verification
import SovereignInference.SipPic.RedemptionTotality
import SovereignInference.SipRelay.Client
import SovereignInference.SipRouter.Totality
import SovereignInference.SipGateway.Accounting
import SovereignInference.SipDiscovery.Soundness
import SovereignInference.SipOpenaiProxy.Atomicity
import SovereignInference.SipRouter.Binding
import SovereignInference.SipRouter.Independence
import SovereignInference.SipGateway.Ceiling
import SovereignInference.SipGateway.RateLimiter
import SovereignInference.SipGateway.PriceText
import SovereignInference.SipProtocol.Amounts
import SovereignInference.SipProtocol.Conformance
import SovereignInference.Python.Utf8
import SovereignInference.SipProtocol.KeyStrings
import SovereignInference.SipProtocol.Jcs
import SovereignInference.SipPic.ExpiryChecks
import SovereignInference.SipPic.BlindPreimage
import SovereignInference.SipPic.Interference
import SovereignInference.SipDiscovery.SharedFile
import SovereignInference.SipDiscovery.PublishedInstant
import SovereignInference.SipPic.LedgerHistory
import SovereignInference.SipPic.DegenerateIssuers
import SovereignInference.SipPic.WalletSelection
import SovereignInference.Arithmetic.Blend
import SovereignInference.SipRouter.ExactScores
import SovereignInference.SipReputation.Fold
import SovereignInference.SipReputation.Survival
import SovereignInference.SinNode.Recommendations
import SovereignInference.SipArweave.LocalAnchor
import SovereignInference.SipProviderAkash.CheapestBid
import SovereignInference.SipProviderAkash.Transactions
import SovereignInference.SipPolicy.Soundness
import SovereignInference.SipOpenaiProxy.AddressSpellings
import SovereignInference.SinNode.Recommend
import SovereignInference.SipRouter.Registry
import SovereignInference.SipRelay.Server
import SovereignInference.SipDiscovery.ArweaveDirectory
import SovereignInference.Effects.Yields
import SovereignInference.Python.JsonText
import SovereignInference.SinNode.Http
import SovereignInference.SipOpenaiProxy.ChatEndpoint
import SovereignInference.SipOpenaiProxy.ChatStream
import SovereignInference.SipGateway.Exchange
import SovereignInference.Python.Calendar
import SovereignInference.Python.IsoText
import SovereignInference.SipGateway.Challenge
