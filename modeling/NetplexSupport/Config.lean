/-
`app/config.py`: the settings the modelled routes read, with the defaults they
take from an empty environment.
-/
import NetplexSupport.Python.Text

namespace NetplexSupport

open Py

structure Settings where
  licensePublicKey : Str := ""
  signingPublicKey : Str := ""
  licenseTrustStoreJson : Str := ""
  signingTrustStoreJson : Str := ""
  trustedProxies : Str := ""
  intakeRatePerMin : Int := 30
  webIntakeRatePerMin : Int := 10
  licenseVerifyRatePerMin : Int := 30
  forwardIntakeTokens : Str := ""
  emailIntakeSecrets : Str := ""
  adminApiTokens : Str := ""
  maxBlobBytes : Int := 5242880
  maxRequestBodyBytes : Int := 65536

end NetplexSupport
