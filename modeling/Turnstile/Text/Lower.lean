/-!
# Lower case

Texts are compared regardless of the case of their ASCII letters by way of their lower-case forms.
Letters outside ASCII are left alone.
-/

namespace Turnstile.Text

/-- The text with its ASCII letters in lower case. -/
def lower (s : String) : String := .ofList (s.toList.map Char.toLower)

end Turnstile.Text
