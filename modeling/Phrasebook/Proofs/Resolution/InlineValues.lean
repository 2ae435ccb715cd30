import Phrasebook.Proofs.Markup.Escaping
import Phrasebook.Proofs.Resolution.Search
import Phrasebook.Proofs.Resolution.SinglePass
import Phrasebook.Proofs.Template.InlineText

namespace Phrasebook

variable {ι : Type}

open Template

namespace Resolution

variable {deeper : Scope → Resolver ι} {site : Site ι} {ns raw template text : String} {bag : Bag}

end Resolution
end Phrasebook
