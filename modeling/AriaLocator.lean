import AriaLocator.Document.Reader
import AriaLocator.Locator.Json
import AriaLocator.Main
import AriaLocator.Proofs.Batch.LifeCycle
import AriaLocator.Proofs.Batch.Transparency
import AriaLocator.Proofs.Document.OnePass
import AriaLocator.Proofs.Document.Sorting
import AriaLocator.Proofs.Error.ExtendedMessage
import AriaLocator.Proofs.Generator.Minimality
import AriaLocator.Proofs.Generator.Modes
import AriaLocator.Proofs.Generator.Validity
import AriaLocator.Proofs.Locator.Position
import AriaLocator.Proofs.Lookup.Furthest
import AriaLocator.Proofs.Lookup.Hints
import AriaLocator.Proofs.Lookup.Refusal
import AriaLocator.Proofs.Lookup.Stopping
import AriaLocator.Proofs.Name.HiddenText
import AriaLocator.Proofs.Property.Selection
import AriaLocator.Proofs.Role.HeaderCell
import AriaLocator.Proofs.Role.Position
import AriaLocator.Proofs.Role.Select
import AriaLocator.Proofs.Role.TagIndex
import AriaLocator.Proofs.Style.Case
import AriaLocator.Proofs.Style.Visibility
import AriaLocator.Proofs.Table.Bands
import AriaLocator.Proofs.Table.Coverage
import AriaLocator.Proofs.Table.Precedence
import AriaLocator.Proofs.Table.Spans
