import Phrasebook.Backend
import Phrasebook.Bundle
import Phrasebook.Message.Dispatch
import Phrasebook.Message.Index
import Phrasebook.Message.Merge
import Phrasebook.Message.Uses
import Phrasebook.Pattern.Context
import Phrasebook.Pattern.Walk
import Phrasebook.Proofs.Backend.Chain
import Phrasebook.Proofs.Backend.Freshness
import Phrasebook.Proofs.Cache.Inclusion
import Phrasebook.Proofs.Cache.LeastRecent
import Phrasebook.Proofs.Diagnostic.Caret
import Phrasebook.Proofs.Diagnostic.Cutting
import Phrasebook.Proofs.Engine.Outcome
import Phrasebook.Proofs.Engine.Transparency
import Phrasebook.Proofs.Localizer.Number
import Phrasebook.Proofs.Message.Branches
import Phrasebook.Proofs.Message.Merging
import Phrasebook.Proofs.Message.Preorder
import Phrasebook.Proofs.Message.Tour
import Phrasebook.Proofs.Number.Ceiling
import Phrasebook.Proofs.Number.Faults
import Phrasebook.Proofs.Number.Nearest
import Phrasebook.Proofs.Number.Notation
import Phrasebook.Proofs.Pattern.Anywhere
import Phrasebook.Proofs.Pattern.Concatenation
import Phrasebook.Proofs.Pattern.Context
import Phrasebook.Proofs.Pattern.Escape
import Phrasebook.Proofs.Pattern.Image
import Phrasebook.Proofs.Pattern.Limit
import Phrasebook.Proofs.Pattern.Nesting
import Phrasebook.Proofs.Pattern.Numeral
import Phrasebook.Proofs.Pattern.Position
import Phrasebook.Proofs.Pattern.Progress
import Phrasebook.Proofs.Pattern.Reported
import Phrasebook.Proofs.Pattern.Spacing
import Phrasebook.Proofs.Pattern.Truncation
import Phrasebook.Proofs.Pattern.Walk
import Phrasebook.Proofs.Plural.Bundled
import Phrasebook.Proofs.Plural.English
import Phrasebook.Proofs.Render.Coverage
import Phrasebook.Proofs.Render.Leaves
import Phrasebook.Proofs.Render.Offset
import Phrasebook.Proofs.Render.Path
import Phrasebook.Proofs.Render.Reach
import Phrasebook.Proofs.Render.Strain
import Phrasebook.Proofs.Store.Joining
import Phrasebook.Proofs.Store.Loading
