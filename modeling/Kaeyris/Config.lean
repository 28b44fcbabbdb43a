import Kaeyris.Text

/-!
# Settings

The fields of `core/config.py` that the modelled functions read. `config.py` refuses to load when
one of the two limits is not strictly positive.
-/

namespace Kaeyris

structure Settings where
  llmProvider : Text
  llmModel : Text
  llmMaxTokensDefault : Int
  transcriptionModel : Text
  transcriptionLanguageHint : Text
  transcriptionChunkDurationSeconds : Int
  chunkMaxChars : Nat
  chunkMaxChars_pos : 0 < chunkMaxChars
  audioMaxUploadBytes : Nat
  audioMaxUploadBytes_pos : 0 < audioMaxUploadBytes

def Settings.default : Settings where
  llmProvider := "deepinfra".toList
  llmModel := "meta-llama/Meta-Llama-3.1-8B-Instruct".toList
  llmMaxTokensDefault := 1000
  transcriptionModel := "whisper-large-v3".toList
  transcriptionLanguageHint := "fr".toList
  transcriptionChunkDurationSeconds := 30
  chunkMaxChars := 30000
  chunkMaxChars_pos := by decide
  audioMaxUploadBytes := 500 * 1024 * 1024
  audioMaxUploadBytes_pos := by decide

/-- `a or b` on an optional string: an empty string counts as absent. -/
def Text.orElse (value : Option Text) (default : Text) : Text :=
  match value with
  | some (c :: rest) => c :: rest
  | _ => default

def Text.present (value : Option Text) : Bool :=
  match value with
  | some (_ :: _) => true
  | _ => false

end Kaeyris
