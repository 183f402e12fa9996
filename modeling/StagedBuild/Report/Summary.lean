import StagedBuild.Stage.Options
import StagedBuild.Text.Lines

/-!
# Summaries of stage options

One line for the options of a stage, for people to read. Options without anything to say have an
empty summary.
-/

namespace StagedBuild

/-- The listed words that apply. -/
def wordsThatApply (words : List (Bool × String)) : List String :=
  (words.filter (·.1)).map (·.2)

/-- What the options of a stage amount to. -/
def StageOptions.summary : StageOptions → String
  | aliasResolution entries extensions =>
    entries.length.repr ++ " aliases, extensions " ++ Text.joinWith " " extensions
  | envSubstitution replacements =>
    Text.joinWith ", " (replacements.entries.map fun entry => entry.1 ++ "=" ++ entry.2)
  | componentCompilation options =>
    Text.joinWith ", " (options.output.name :: wordsThatApply
      [(options.dev, "dev"), (options.hydratable, "hydratable"), (options.emitCss, "emit css")])
  | moduleResolution browser dedupe =>
    (if browser then "browser fields" else "default fields") ++
      match dedupe with
      | none => ""
      | some package => ", dedupe " ++ package
  | interopNormalization => ""
  | typedSource check => if check then "type-checked" else "transpile only"
  | legacyDownlevel options => "targets `" ++ options.browserslist ++ "`"
  | minification module => if module then "module output" else "script output"

end StagedBuild
