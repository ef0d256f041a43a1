/-
The loader of the program.

A file of the program holds YAML, of which JSON is a part.
-/
import ApiSchema.Files.Loader
import ApiSchema.Yaml.Value

namespace ApiSchema.Yaml

instance : Loader where
  load text := (read text).mapError (Failure.map Malformed.message)

end ApiSchema.Yaml
