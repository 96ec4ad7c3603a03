import ComponentModel.Analysis.Classification
import ComponentModel.Code.Generation
import ComponentModel.Code.ProfileDocument
import ComponentModel.Model.Library
import ComponentModel.Model.Validation

/-!
# From documents to code

The whole way from the text of a model to its analysis and its code. A model is validated before
it is analysed, and code is only generated for a model that can be solved.
-/

namespace ComponentModel.Code

open Analysis (AnalysedModel Issue ModelType)

/-- Why there is no analysis or no code for a text. -/
inductive PipelineFault where
  | model (fault : ModelFault)
  | profile (fault : ProfileFault)
  /-- The model cannot be solved. -/
  | unsolvable (type : ModelType) (issues : List Issue)
  deriving Repr, DecidableEq

/-- The message of a fault. -/
def PipelineFault.message : PipelineFault → String
  | .model fault => "Error in the model description: " ++ fault.message
  | .profile fault => fault.message
  | .unsolvable type issues =>
      "Cannot generate code for a model classified as " ++ type.text ++ " (" ++
        countText issues.length ++ " issues)"

/-- Read, validate and analyse a model. -/
def analyseText (text : String) : Except PipelineFault AnalysedModel := do
  let model ← (Model.read text).mapError .model
  let valid ← (model.validated false).mapError .model
  return Analysis.analyse valid.model

/-- Read, validate and analyse a model, and generate its code. -/
def generateText (text : String) (profile : Profile) : Except PipelineFault GeneratedCode := do
  let model ← analyseText text
  if model.type.isValid then
    return profile.generate model
  else
    throw (.unsolvable model.type model.issues)

end ComponentModel.Code
