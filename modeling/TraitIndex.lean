import TraitIndex.Client.Signature
import TraitIndex.Main
import TraitIndex.Scenario.Run
import TraitIndex.Proofs.PageRun
import TraitIndex.Proofs.FragmentOutcome
import TraitIndex.Proofs.QuotedForms
import TraitIndex.Proofs.LiteralTree
import TraitIndex.Proofs.LiteralDocument
import TraitIndex.Proofs.LiteralExtent
import TraitIndex.Proofs.LiteralValue
import TraitIndex.Proofs.Generated
import TraitIndex.Proofs.Keys
import TraitIndex.Proofs.ReadBack
import TraitIndex.Proofs.Playing
import TraitIndex.Proofs.AtRest
import TraitIndex.Proofs.Reading
import TraitIndex.Proofs.PollingRun
import TraitIndex.Proofs.ClientContribution
import TraitIndex.Proofs.ClosedPage
import TraitIndex.Proofs.Refusals
import TraitIndex.Proofs.Failures
import TraitIndex.Proofs.FreshStart
import TraitIndex.Proofs.LiteralMeaning
import TraitIndex.Proofs.LoadingOrder
import TraitIndex.Proofs.Dump
import TraitIndex.Proofs.Attaching
import TraitIndex.Proofs.Unchanged
import TraitIndex.Proofs.Bystanders
import TraitIndex.Proofs.Concatenation
import TraitIndex.Proofs.Stable
import TraitIndex.Proofs.Silence
import TraitIndex.Proofs.FragmentPath
import TraitIndex.Proofs.Directory
import TraitIndex.Proofs.RemoteLoading
import TraitIndex.Proofs.PathLoading
import TraitIndex.Proofs.Flushing
import TraitIndex.Proofs.Revisions
import TraitIndex.Proofs.QuotedValue
import TraitIndex.Proofs.LiteralEnd
import TraitIndex.Proofs.CrateKeys
