import Porthmos.ConnectionDialog

/-!
# The forms of the protocols

What each protocol that comes with the program asks for.
-/

namespace Porthmos

/-- `OptionKind::Text` of a field that may be left empty -/
def identityFile : OptionField := ⟨"identity_file", "Identity file", false, .text ""⟩

def sftpForm : ConnectionForm := { ConnectionForm.standard 22 with options := [identityFile] }

def scpForm : ConnectionForm := { ConnectionForm.standard 22 with options := [identityFile] }

def ftpForm : ConnectionForm :=
  { ConnectionForm.standard 21 with
    username := ⟨"Username", false⟩
    options := [
      ⟨"security", "Security", false, .choice [
        ⟨"plain", "Plain FTP (unencrypted)"⟩, ⟨"explicit", "Explicit TLS (FTPS)"⟩,
        ⟨"implicit", "Implicit TLS (FTPS)"⟩] "explicit"⟩,
      ⟨"passive", "Passive mode", false, .toggle true⟩] }

/-- `SECURITY_CHOICES` of what runs over HTTP -/
def httpSecurity : OptionField :=
  ⟨"security", "Security", false,
    .choice [⟨"https", "HTTPS"⟩, ⟨"http", "HTTP (unencrypted)"⟩] "https"⟩

def webdavForm : ConnectionForm :=
  { ConnectionForm.standard 443 with
    username := ⟨"Username", false⟩
    options := [httpSecurity, ⟨"root", "Root path", false, .text "/"⟩] }

def s3Form : ConnectionForm :=
  { ConnectionForm.standard 443 with
    host := ⟨"Endpoint", true⟩
    username := ⟨"Access key ID", true⟩
    password := ⟨"Secret access key", false⟩
    options := [
      httpSecurity,
      ⟨"region", "Region", false, .text "us-east-1"⟩,
      ⟨"bucket", "Bucket", false, .text ""⟩,
      ⟨"addressing", "Addressing", false, .choice [
        ⟨"auto", "Automatic"⟩, ⟨"path", "Path-style (host/bucket)"⟩,
        ⟨"virtual", "Virtual-hosted (bucket.host)"⟩] "auto"⟩] }

/-- `builtin_protocols` with every feature -/
def builtinProtocols : List ProtocolInfo :=
  [⟨"sftp", "SFTP", sftpForm⟩, ⟨"ftp", "FTP", ftpForm⟩, ⟨"webdav", "WebDAV", webdavForm⟩,
    ⟨"s3", "S3", s3Form⟩, ⟨"scp", "SCP", scpForm⟩]

end Porthmos
