import Phrasebook.Markup
import Phrasebook.Proofs.Text.Occurrences

namespace Phrasebook.Markup

end Phrasebook.Markup
